import DeviceMessaging.CalmMoves

namespace DeviceMessaging

open Effect

variable {svc : Service} {settled : DeliveryPattern → Prop} {ledger : List Issued}
  {polls : PollRule} {w : World} {m : MessageId} {a : Attempt} {plugin : DeliveryPlugin}

theorem no_send_of_indexed {h : MessageHash} (hp : Places settled ledger w m h a)
    (hi : a.status.IsIndexed) : w.outstanding m = [] := by
  refine hp.no_send fun he => ?_
  rw [he] at hi
  exact absurd hi (by decide)

theorem advance_calm {fromStage next : StageName} {x : Option String} {n : ParsedInt}
    {Q : Bool → World → Prop} {E : String → World → Prop}
    (hn : nextStage plugin.deliveryPattern fromStage = some next) (hne : next ≠ .retry)
    (hQ : ∀ score : ℚ, (redis (.moveMessageBetweenQueues {
      sourceQueue := stageKeyFor fromStage plugin.id
      destinationQueue := stageKeyFor next plugin.id
      messageId := m
      destinationScore := some score
      deliveryStatus := (stages next).entryStatus
      deliveryQueueId := x.getD ""
      indexKey := truthy x })).wp (calm polls) Q E w) :
    (advance svc m plugin fromStage x n).wp (calm polls) Q E w := by
  unfold advance
  simp only [hn, Prog.wp_bind, wp_dateNow]
  intro now
  exact entryWait_calm hne fun ms => hQ (now + ms)

/-- The move that follows an accepted send indexes the message under its id. -/
theorem advance_sent_calm {x : String} {n : ParsedInt} (hs : StandsAt svc settled ledger w m a)
    (hst : a.status = .SENT_TO_NS) (hsend : w.outstanding m = []) (hx : x ≠ "")
    (hl : ⟨x, a.plugin.id, m, some a.count⟩ ∈ ledger) :
    (advance svc m a.plugin .ns (some x) n).wp (calm polls)
      (fun moved w' =>
        (moved = true ∧ Only ledger m w w' ∧
          StandsAt svc settled ledger w' m (a.moved .DELIVERED_TO_NS)) ∨
        (moved = false ∧ m ∉ w.store.redis.queues .ns ∧ w'.store.redis = w.store.redis ∧
          ∀ x, Uninvolved ledger x w w')) NoThrow w := by
  obtain ⟨h, hh, hstand, hp⟩ := hs
  obtain ⟨next, hn, hne, hstatus, hkey⟩ : ∃ next, nextStage a.plugin.deliveryPattern .ns = some next ∧
      next ≠ .retry ∧ (stages next).entryStatus = .DELIVERED_TO_NS ∧
      (a.moved .DELIVERED_TO_NS).station = some (stageKeyFor next a.plugin.id) := by
    cases hpat : a.plugin.deliveryPattern with
    | PUSH =>
      refine ⟨.relayNode, rfl, by decide, rfl, ?_⟩
      simp [Attempt.station, Attempt.moved, stationKey, stageForStatus, hpat]
    | PULL =>
      refine ⟨.awaitingTask, rfl, by decide, rfl, ?_⟩
      simp [Attempt.station, Attempt.moved, stationKey, stageForStatus, hpat]
  refine advance_calm hn hne fun score => ?_
  by_cases hq : m ∈ w.store.redis.queues .ns
  · have hmove := move_calm polls {
        sourceQueue := stageKeyFor .ns a.plugin.id
        destinationQueue := stageKeyFor next a.plugin.id
        messageId := m
        destinationScore := some score
        deliveryStatus := (stages next).entryStatus
        deliveryQueueId := (some x).getD ""
        indexKey := truthy (some x) } hh hstand hp hq rfl hsend (by rw [hstatus]; exact hkey)
      (fun he => by rw [hstatus] at he; rcases he with he | he <;> cases he)
      (.new x hx rfl (truthy_some hx) hl (.inl hstatus)
        (by rw [hst]; decide))
    refine Prog.wp_mono hmove (fun moved w' hw' => ?_) fun _ _ h => h
    simp only [hstatus] at hw'
    exact .inl hw'
  · refine Prog.wp_mono (move_absent_calm ledger hq) (fun moved w' hw' => ?_) fun _ _ h => h
    exact .inr ⟨hw'.1, hq, hw'.2⟩

/-- The transmission acknowledged: from the relay node to the device. -/
theorem advance_device_calm (hs : StandsAt svc settled ledger w m a) (hi : a.status.IsIndexed)
    (hpat : plugin.deliveryPattern = .PUSH) :
    (advance svc m plugin .relayNode none (some 0)).wp (calm polls)
      (fun moved w' =>
        (moved = true ∧ m ∈ w.store.redis.queues .relayNode ∧ Only ledger m w w' ∧
          StandsAt svc settled ledger w' m (a.moved .SENT_TO_DEVICE)) ∨
        (moved = false ∧ m ∉ w.store.redis.queues .relayNode ∧
          w'.store.redis = w.store.redis ∧ ∀ x, Uninvolved ledger x w w')) NoThrow w := by
  obtain ⟨h, hh, hstand, hp⟩ := hs
  have hn : nextStage plugin.deliveryPattern .relayNode = some .device := by rw [hpat]; rfl
  refine advance_calm hn (by decide) fun score => ?_
  have hsend : w.outstanding m = [] := no_send_of_indexed hp hi
  by_cases hq : m ∈ w.store.redis.queues .relayNode
  · have hmove := move_calm polls {
        sourceQueue := stageKeyFor .relayNode plugin.id
        destinationQueue := stageKeyFor .device plugin.id
        messageId := m
        destinationScore := some score
        deliveryStatus := (stages .device).entryStatus
        deliveryQueueId := (none : Option String).getD ""
        indexKey := truthy none } hh hstand hp hq rfl hsend rfl
      (fun he => by rcases he with he | he <;> cases he)
      (.none rfl rfl ⟨fun _ => hi, fun _ => .inr rfl⟩)
    refine Prog.wp_mono hmove (fun moved w' hw' => ?_) fun _ _ h => h
    exact .inl ⟨hw'.1, hq, hw'.2⟩
  · refine Prog.wp_mono (move_absent_calm ledger hq) (fun moved w' hw' => ?_) fun _ _ h => h
    exact .inr ⟨hw'.1, hq, hw'.2⟩

/-- What an event does to the message its external id is indexed to. -/
inductive Applied (svc : Service) (settled : DeliveryPattern → Prop) (ledger : List Issued)
    (w : World) (plugin : DeliveryPlugin) (event : ParsedIncomingEvent) (m : MessageId)
    (a : Attempt) : StageOutcome → World → Prop
  | transmitted {w' : World} (he : event.deliveryStatus = .SENT_TO_DEVICE)
    (hp : plugin.deliveryPattern = .PUSH) (hq : m ∈ w.store.redis.queues .relayNode)
    (ho : Only ledger m w w') (hs : StandsAt svc settled ledger w' m (a.moved .SENT_TO_DEVICE)) :
    Applied svc settled ledger w plugin event m a .movedOn w'
  | elsewhere {w' : World} (he : event.deliveryStatus = .SENT_TO_DEVICE)
    (hp : plugin.deliveryPattern = .PUSH) (hq : m ∉ w.store.redis.queues .relayNode)
    (hr : w'.store.redis = w.store.redis) (ho : ∀ x, Uninvolved ledger x w w') :
    Applied svc settled ledger w plugin event m a .movedOn w'
  | failed {stage : StageName} {out : StageOutcome} {w' : World}
    (he : event.deliveryStatus = .DELIVERY_FAILED)
    (hs : stageForStatus a.status plugin.deliveryPattern = some stage)
    (hf : Failed svc settled ledger w m a (stageKeyFor stage plugin.id)
      (event.failureContext.getD
        { reason := "Unable to deliver message after negative remote response" }) out w') :
    Applied svc settled ledger w plugin event m a out w'
  | delivered {w' : World} (he : event.deliveryStatus = .DELIVERY_SUCCESSFUL) (hg : Gone w' m)
    (ho : Only ledger m w w') : Applied svc settled ledger w plugin event m a .removed w'
  | nothing (he : event.deliveryStatus ≠ .DELIVERY_SUCCESSFUL)
    (hf : event.deliveryStatus ≠ .DELIVERY_FAILED)
    (hd : ¬ (event.deliveryStatus = .SENT_TO_DEVICE ∧ plugin.deliveryPattern = .PUSH)) :
    Applied svc settled ledger w plugin event m a .rescheduled w

/-- What `processEvent` does: an unsolicited event is passed on, one without an id
or with an unknown one changes nothing, and any other is applied to the message it
is indexed to, which is then on its way to the device. -/
inductive Processed (svc : Service) (settled : DeliveryPattern → Prop) (ledger : List Issued)
    (w : World) (plugin : DeliveryPlugin) (event : ParsedIncomingEvent) :
    StageOutcome → World → Prop
  | unsolicited {w' : World} (hu : event.unsolicited = true) (ho : ∀ x, Uninvolved ledger x w w') :
    Processed svc settled ledger w plugin event .rescheduled w'
  | unnamed (hu : event.unsolicited = false) (hx : truthy event.deliveryQueueId = none) :
    Processed svc settled ledger w plugin event .rescheduled w
  | unknown {x : String} (hu : event.unsolicited = false)
    (hx : truthy event.deliveryQueueId = some x) (hm : w.store.redis.externals x = none) :
    Processed svc settled ledger w plugin event .orphaned w
  | applied {x : String} {m : MessageId} {a : Attempt} {out : StageOutcome} {w' : World}
    (hu : event.unsolicited = false) (hx : truthy event.deliveryQueueId = some x)
    (hm : w.store.redis.externals x = some m) (hs : StandsAt svc settled ledger w m a)
    (hi : a.status.IsIndexed) (he : Applied svc settled ledger w plugin event m a out w') :
    Processed svc settled ledger w plugin event out w'

theorem stage_of_indexed (hi : a.status.IsIndexed) (pattern : DeliveryPattern) :
    ∃ stage, stageForStatus a.status pattern = some stage := by
  rcases hi with hi | hi <;> rw [hi]
  · cases pattern <;> exact ⟨_, rfl⟩
  · exact ⟨.device, rfl⟩

theorem not_queued_of_indexed (hi : a.status.IsIndexed) : a.status ≠ .QUEUED := by
  intro he
  rw [he] at hi
  exact absurd hi (by decide)

theorem processFailure_calm {event : ParsedIncomingEvent}
    (hs : StandsAt svc settled ledger w m a) (hi : a.status.IsIndexed)
    (he : event.deliveryStatus = .DELIVERY_FAILED) :
    (processFailure svc m event plugin).wp (calm polls)
      (Applied svc settled ledger w plugin event m a) NoThrow w := by
  obtain ⟨h, hh, hst, hp⟩ := hs
  obtain ⟨message, hm, hl⟩ := hst.load m
  obtain ⟨stage, hstage⟩ := stage_of_indexed hi plugin.deliveryPattern
  unfold processFailure
  rw [Prog.wp_bind]
  refine getMessageById_calm hh hm ?_
  simp only [hl.status, hstage]
  have hown : a.status = .QUEUED → plugin = a.plugin :=
    fun hq => absurd hq (not_queued_of_indexed hi)
  refine Prog.wp_mono (retryOrFail_calm ⟨h, hh, hst, hp⟩ (no_send_of_indexed hp hi) hown)
    (fun out w' hf => ?_) fun _ _ h => h
  exact .failed he hstage hf

theorem processSuccess_calm {event : ParsedIncomingEvent}
    (hs : StandsAt svc settled ledger w m a) (hi : a.status.IsIndexed)
    (he : event.deliveryStatus = .DELIVERY_SUCCESSFUL) :
    (processSuccess svc m event plugin).wp (calm polls)
      (Applied svc settled ledger w plugin event m a) NoThrow w := by
  obtain ⟨h, hh, hst, hp⟩ := hs
  obtain ⟨message, hm, hl⟩ := hst.load m
  unfold processSuccess
  rw [Prog.wp_bind]
  refine getMessageById_calm hh hm ?_
  simp only
  rw [Prog.wp_bind, wp_dateNow]
  intro timestamp
  have hown : a.status = .QUEUED → plugin = a.plugin :=
    fun hq => absurd hq (not_queued_of_indexed hi)
  have hpm : some message.id = some m := congrArg some hl.id
  refine Prog.wp_mono (emit_purge_calm polls StageOutcome.removed hst hp hl.toSnapshot
    (no_send_of_indexed hp hi) hown hpm) (fun v w' hv => ?_) fun _ _ h => h
  obtain ⟨rfl, hg, ho⟩ := hv
  exact .delivered he hg ho

theorem processIndexed_calm {event : ParsedIncomingEvent}
    (hs : StandsAt svc settled ledger w m a) (hi : a.status.IsIndexed) :
    (processIndexed svc m event plugin).wp (calm polls)
      (Applied svc settled ledger w plugin event m a) NoThrow w := by
  unfold processIndexed
  split
  next h =>
    rw [Prog.wp_bind]
    refine Prog.wp_mono (advance_device_calm hs hi h.2) (fun moved w' hw' => ?_) fun _ _ h => h
    rcases hw' with ⟨-, hq, ho, hs'⟩ | ⟨-, hq, hr, ho⟩
    · exact .transmitted h.1 h.2 hq ho hs'
    · exact .elsewhere h.1 h.2 hq hr ho
  next hd =>
    split
    next hf => exact processFailure_calm hs hi hf
    next hf =>
      split
      next hn => exact .nothing hn hf hd
      next hn => exact processSuccess_calm hs hi (not_not.mp hn)

/-- An index entry leads to a message that stands at an indexed status. -/
theorem Sound.indexed (hS : Sound svc settled ledger w) {x : String}
    (hm : w.store.redis.externals x = some m) :
    ∃ a, StandsAt svc settled ledger w m a ∧ a.status.IsIndexed := by
  rcases hS m with hn | ⟨a, h, hh, hst, hp⟩
  · exact absurd hm (hn.externals x)
  · exact ⟨a, ⟨h, hh, hst, hp⟩, (hp.externals x hm).2.1⟩

theorem processEvent_calm (hS : Sound svc settled ledger w) (event : ParsedIncomingEvent)
    (plugin : DeliveryPlugin) :
    (processEvent svc event plugin).wp (calm polls)
      (Processed svc settled ledger w plugin event) NoThrow w := by
  unfold processEvent
  split
  next hu =>
    rw [Prog.wp_bind]
    refine Prog.wp_mono (emit_calm ledger _) (fun _ w' hw' => ?_) fun _ _ h => h
    exact .unsolicited hu fun x => hw'.2 x nofun
  next hu =>
    have hu : event.unsolicited = false := Bool.eq_false_iff.mpr hu
    split
    next hx => exact .unnamed hu hx
    next x hx =>
      unfold getMessageIdFromDeliveryQueueId
      rw [Prog.wp_bind, Prog.wp_bind, wp_getExternalIndex]
      cases hm : w.store.redis.externals x with
      | none => exact .unknown hu hx hm
      | some m =>
        obtain ⟨a, hs, hi⟩ := hS.indexed hm
        have hne : m ≠ "" := by
          obtain ⟨h, -, -, hp⟩ := hs
          exact hp.id_ne
        have hkey : messageIdFromKey (some m) = some m := by simp [messageIdFromKey, hne]
        rw [Prog.wp_pure, hkey]
        refine Prog.wp_mono (processIndexed_calm hs hi) (fun out w' he => ?_) fun _ _ h => h
        exact .applied hu hx hm hs hi he

theorem processEvent_runs (hS : Sound svc settled ledger w) {event : ParsedIncomingEvent}
    {plugin : DeliveryPlugin} {r : Except String StageOutcome} {w' : World}
    (hr : (processEvent svc event plugin).Runs (calmExec polls) w r w') :
    ∃ out, r = .ok out ∧ Processed svc settled ledger w plugin event out w' := by
  have he := Prog.wp_runs (processEvent_calm hS event plugin) hr
  cases r with
  | ok out => exact ⟨out, rfl, he⟩
  | error e => exact he.elim

end DeviceMessaging
