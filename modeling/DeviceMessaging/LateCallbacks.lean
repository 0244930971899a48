import DeviceMessaging.ExitReferences

namespace DeviceMessaging

open Effect

variable {svc : Service} {settled : DeliveryPattern → Prop} {ledger : List Issued}
  {fresh : Freshness} {polls : PollRule} {s : Serial} {w w' : World} {m : MessageId} {a : Attempt}
  {plugin : DeliveryPlugin} {event : ParsedIncomingEvent}

/-- A message stands in one place. -/
theorem StandsAt.unique {settled' : DeliveryPattern → Prop} {ledger' : List Issued} {a' : Attempt}
    (hs : StandsAt svc settled ledger w m a) (hs' : StandsAt svc settled' ledger' w m a') :
    a'.status = a.status ∧ a'.count = a.count ∧ a'.plugin = a.plugin := by
  obtain ⟨h, hh, hst, -⟩ := hs
  obtain ⟨h', hh', hst', -⟩ := hs'
  cases hh.symm.trans hh'
  have hcreate : a'.create.pluginId = a.create.pluginId := by
    have hf := congrArg MessageHash.pluginId (hst'.holds.fields.symm.trans hst.holds.fields)
    exact Option.some.inj hf
  refine ⟨Option.some.inj (hst'.status.symm.trans hst.status), ?_, ?_⟩
  · exact FieldText.text.inj (hst'.count.symm.trans hst.count)
  · have ho := hst'.owned
    rw [hcreate, hst.owned] at ho
    exact (Option.some.inj ho).symm

theorem loaded_stored {message : DeviceMessage} (hl : w.loaded m = some message) :
    ∃ h, w.store.redis.messages m = some h := by
  obtain ⟨h, hh, -⟩ := Option.bind_eq_some_iff.mp hl
  exact ⟨h, hh⟩

/-- The message is on the attempt the id was given to. -/
def OnAttempt (w : World) (e : Issued) : Prop :=
  ∃ message, w.loaded e.messageId = some message ∧ message.retryCount = e.retryCount

/-- Nothing of the engine's own keys differs. -/
structure Redis.SameEngine (r r' : Redis) : Prop extends r.SameIndexes r' where
  messages : r'.messages = r.messages
  queues : r'.queues = r.queues
  toDistribute : r'.queuesToDistributeFrom = r.queuesToDistributeFrom

theorem emit_engine_calm (pm : PartialMessage) :
    (emitDeliveryEvent svc pm).wp (calm polls)
      (fun _ w' => w.store.redis.SameEngine w'.store.redis) NoThrow w := by
  have hnone : w.store.redis.SameEngine w.store.redis := ⟨⟨rfl, rfl, rfl⟩, rfl, rfl, rfl⟩
  unfold emitDeliveryEvent
  split
  next =>
    unfold storeAndEmit
    simp only [Prog.wp_bind, wp_dateNow, wp_ulid]
    intro now ev
    cases buildWebhookEvent pm now ev with
    | error e => exact hnone
    | ok event =>
      simp only [Prog.wp_bind, wp_dateNow]
      intro later
      rw [wp_redis_plain rfl]
      exact ⟨⟨rfl, rfl, rfl⟩, rfl, rfl, rfl⟩
  next => exact hnone

theorem unsolicited_engine {r : Except String StageOutcome} (hu : event.unsolicited = true)
    (hr : (processEvent svc event plugin).Runs (calmExec polls) w r w') :
    w.store.redis.SameEngine w'.store.redis := by
  have hwp : (processEvent svc event plugin).wp (calm polls)
      (fun _ w' => w.store.redis.SameEngine w'.store.redis) NoThrow w := by
    unfold processEvent
    rw [if_pos hu, Prog.wp_bind]
    exact emit_engine_calm _
  have he := Prog.wp_runs hwp hr
  cases r with
  | ok out => exact he
  | error e => exact he.elim

/-- An id leads to the message whose attempt it was given to, while that attempt
is on its way to the device. -/
theorem Sound.of_index (hS : Sound svc settled ledger w) {x : String}
    (hx : w.store.redis.externals x = some m) :
    ∃ a h, StandsAt svc settled ledger w m a ∧ w.store.redis.messages m = some h ∧
      h.deliveryQueueId = some x ∧ h.deliveryStatus = some a.status ∧ a.status.IsIndexed ∧
      ⟨x, a.plugin.id, m, some a.count⟩ ∈ ledger := by
  rcases hS m with hn | ⟨a, h, hh, hst, hp⟩
  · exact absurd hx (hn.externals x)
  obtain ⟨hd, hi, hl⟩ := hp.externals x hx
  have hd : h.deliveryQueueId = some x := (Option.filter_eq_some_iff.mp hd).1
  exact ⟨a, h, ⟨h, hh, hst, hp⟩, hh, hd, hst.status, hi, hl⟩

/-- The id of an attempt that has ended leads nowhere. -/
theorem Serially.no_index (hs : Serially svc neverReused polls s) {e : Issued} (he : e ∈ s.ledger)
    (ha : ¬ OnAttempt s.world e) : s.world.store.redis.externals e.externalId = none := by
  cases hx : s.world.store.redis.externals e.externalId with
  | none => rfl
  | some m =>
    obtain ⟨a, h, hst, -, -, -, -, hl⟩ := (hs.sound (not_settled svc polls)).of_index hx
    have hee := hs.unique e he _ hl rfl
    obtain ⟨message, hm, -, hc⟩ := hst.loaded
    refine absurd ⟨message, ?_, ?_⟩ ha
    · rw [hee]
      exact hm
    · rw [hee]
      exact hc

/-- Events of an attempt that has ended change nothing, and pass on nothing unless
they answer no command at all; what an id leads to bears it. -/
theorem serially_stale_event_harmless (hs : Serially svc neverReused polls s) :
    (∀ e ∈ s.ledger, ¬ OnAttempt s.world e → ∀ event plugin r w',
      event.deliveryQueueId = some e.externalId →
      (processEvent svc event plugin).Runs (calmExec polls) s.world r w' →
        (event.unsolicited = false → w' = s.world) ∧
        (event.unsolicited = true → s.world.store.redis.SameEngine w'.store.redis)) ∧
    ∀ x m h, s.world.store.redis.externals x = some m → s.world.store.redis.messages m = some h →
      h.deliveryQueueId = some x ∧
        (h.deliveryStatus = some .DELIVERED_TO_NS ∨ h.deliveryStatus = some .SENT_TO_DEVICE) := by
  have hS := hs.sound (not_settled svc polls)
  constructor
  · intro e he ha event plugin r w' hx hr
    refine ⟨fun hu => ?_, fun hu => unsolicited_engine hu hr⟩
    have hnone := hs.no_index he ha
    have hne := hs.ledgerOK.nonempty e he
    have htruthy : truthy event.deliveryQueueId = some e.externalId := by
      rw [hx]
      exact truthy_some hne
    obtain ⟨out, rfl, hp⟩ := processEvent_runs hS hr
    cases hp with
    | unsolicited hu' =>
      rw [hu] at hu'
      cases hu'
    | unnamed => rfl
    | unknown => rfl
    | applied _ hx' hm =>
      cases htruthy.symm.trans hx'
      cases hnone.symm.trans hm
  · intro x m h hx hh
    obtain ⟨a, h', -, hh', hd, hst, hi, -⟩ := hS.of_index hx
    cases hh'.symm.trans hh
    refine ⟨hd, ?_⟩
    rcases hi with hi | hi <;> rw [hst, hi]
    · exact .inl rfl
    · exact .inr rfl

/-- The sample command was delivered, and its success is reported again. -/
theorem delivered_then_late_success : ∃ s r w', Serially vendorService neverReused anyPoll s ∧
    (⟨"X", "calin-chirpstack", sampleId, some 0⟩ : Issued) ∈ s.ledger ∧
    (processEvent vendorService (sampleEvent .DELIVERY_SUCCESSFUL) (calinChirpstack {})).Runs
      (calmExec anyPoll) s.world r w' ∧ w' = s.world := by
  obtain ⟨s, hs, hp⟩ := exists_serial_run vendorService
    (sampleSent ++ [.request (.event "calin-chirpstack" (sampleEvent .DELIVERY_SUCCESSFUL)) granted])
    (fun s => decide ((⟨"X", "calin-chirpstack", sampleId, some 0⟩ : Issued) ∈ s.ledger) &&
      (s.world.store.redis.messages sampleId).isNone &&
      ((processEvent vendorService (sampleEvent .DELIVERY_SUCCESSFUL) (calinChirpstack {})).play
        (scripted fun _ _ _ => true) granted s.world).any fun _ => true) (by decide +kernel)
  simp only [Bool.and_eq_true, decide_eq_true_eq] at hp
  obtain ⟨⟨hl, hn⟩, hplay⟩ := hp
  obtain ⟨r, w', hr, -⟩ := runs_of_script hplay
  have hgone : ¬ OnAttempt s.world ⟨"X", "calin-chirpstack", sampleId, some 0⟩ := by
    rintro ⟨message, hm, -⟩
    obtain ⟨h, hh⟩ := loaded_stored hm
    rw [hh] at hn
    cases hn
  exact ⟨s, r, w', hs, hl, hr,
    ((serially_stale_event_harmless hs).1 _ hl hgone _ _ r w' rfl hr).1 rfl⟩

/-- An event that answers no command is passed on whatever id it bears. -/
theorem late_unsolicited_passed_on : ∃ s r w', Serially vendorService neverReused anyPoll s ∧
    (⟨"X", "calin-chirpstack", sampleId, some 0⟩ : Issued) ∈ s.ledger ∧
    ¬ OnAttempt s.world ⟨"X", "calin-chirpstack", sampleId, some 0⟩ ∧
    (processEvent vendorService { sampleEvent .DELIVERY_SUCCESSFUL with unsolicited := true }
      (calinChirpstack {})).Runs (calmExec anyPoll) s.world r w' ∧
    w'.store.persisted.length = s.world.store.persisted.length + 1 := by
  obtain ⟨s, hs, hp⟩ := exists_serial_run vendorService
    (sampleSent ++ [.request (.event "calin-chirpstack" (sampleEvent .DELIVERY_SUCCESSFUL)) granted])
    (fun s => decide ((⟨"X", "calin-chirpstack", sampleId, some 0⟩ : Issued) ∈ s.ledger) &&
      (s.world.store.redis.messages sampleId).isNone &&
      ((processEvent vendorService { sampleEvent .DELIVERY_SUCCESSFUL with unsolicited := true }
        (calinChirpstack {})).play (scripted fun _ _ _ => true) granted s.world).any
        fun e => e.2.store.persisted.length = s.world.store.persisted.length + 1)
    (by decide +kernel)
  simp only [Bool.and_eq_true, decide_eq_true_eq] at hp
  obtain ⟨⟨hl, hn⟩, hplay⟩ := hp
  obtain ⟨r, w', hr, hw⟩ := runs_of_script hplay
  refine ⟨s, r, w', hs, hl, ?_, hr, of_decide_eq_true hw⟩
  rintro ⟨message, hm, -⟩
  obtain ⟨h, hh⟩ := loaded_stored hm
  rw [hh] at hn
  cases hn

/-- What a callback about a message is for: it ends the message, or has it tried
again. -/
def Heeded (m : MessageId) (count : ParsedInt) (r : Except String StageOutcome) (w' : World) :
    Prop :=
  (r = .ok .removed ∧ w'.store.redis.NoReference m) ∨
    (r = .ok .movedOn ∧ ∃ message, w'.loaded m = some message ∧
      message.deliveryStatus = some .TO_RETRY ∧ message.retryCount = succRetryCount count)

/-- While the attempt is on its way to the device its id leads to the message. -/
theorem Serially.indexed (hs : Serially svc neverReused polls s) {e : Issued} (he : e ∈ s.ledger)
    (hst : StandsAt svc settled s.ledger s.world e.messageId a) (hc : some a.count = e.retryCount)
    (hi : a.status.IsIndexed) :
    s.world.store.redis.externals e.externalId = some e.messageId ∧ a.plugin.id = e.pluginId := by
  obtain ⟨h, -, -, hp⟩ := hst
  obtain ⟨y, -, hl, hy⟩ := hp.index hi
  have hee : ⟨y, a.plugin.id, e.messageId, some a.count⟩ = e :=
    hs.ledgerOK.attempt _ hl e he rfl hc
  have hex : Exclusive s.ledger y e.messageId := by
    intro e' he' hy'
    have h' := hs.unique e' he' _ hl hy'
    rw [h']
  exact ⟨congrArg Issued.externalId hee ▸ hy hex, congrArg Issued.pluginId hee⟩

/-- An event that says how an attempt ended, where its id leads to the message. -/
theorem Processed.heeded {out : StageOutcome} {e : Issued}
    (hev : Processed svc (· = .PUSH) ledger w plugin event out w')
    (hst : StandsAt svc (· = .PUSH) ledger w e.messageId a) (hplugin : a.plugin = plugin)
    (hpush : plugin.deliveryPattern = .PUSH) (hc : some a.count = e.retryCount)
    (hx : truthy event.deliveryQueueId = some e.externalId) (hu : event.unsolicited = false)
    (hd : event.deliveryStatus = .DELIVERY_SUCCESSFUL ∨ event.deliveryStatus = .DELIVERY_FAILED)
    (hi : w.store.redis.externals e.externalId = some e.messageId) :
    Heeded e.messageId e.retryCount (.ok out) w' := by
  cases hev with
  | unsolicited hu' => cases hu.symm.trans hu'
  | unnamed _ hx' => cases hx.symm.trans hx'
  | unknown _ hx' hm =>
    cases hx.symm.trans hx'
    cases hi.symm.trans hm
  | @applied x m a' _ _ _ hx' hm hst' _ happ =>
    cases hx.symm.trans hx'
    cases hi.symm.trans hm
    obtain ⟨hstatus', hcount', hplugin'⟩ := hst.unique hst'
    cases happ with
    | transmitted hd' =>
      rw [hd'] at hd
      rcases hd with hd | hd <;> cases hd
    | elsewhere hd' =>
      rw [hd'] at hd
      rcases hd with hd | hd <;> cases hd
    | @failed stage _ _ _ hstage hf =>
      cases hf with
      | removed _ hg => exact .inl ⟨rfl, hg.toNoReference⟩
      | retried _ _ hs' =>
        obtain ⟨message', hm', hst', hcount⟩ := hs'.loaded
        refine .inr ⟨rfl, message', hm', hst', ?_⟩
        rw [← hc, ← hcount']
        exact hcount
      | absent _ hq =>
        -- a settled message waits in the stage its status names
        obtain ⟨h, -, hstand, hp⟩ := hst'
        have hpl : a'.plugin = plugin := hplugin'.trans hplugin
        rw [← hpl] at hstage hq
        have hnq : a'.status ≠ .QUEUED := by
          intro hq'
          rw [hq'] at hstage
          cases hstage
        have hstation := station_of_stage hnq hstage
        have hpat : a'.plugin.deliveryPattern = .PUSH := by rw [hpl, hpush]
        exact absurd (hp.home hpat _ hstation) hq
    | delivered _ hg => exact .inl ⟨rfl, hg.toNoReference⟩
    | nothing hd' hf' => exact absurd hd (not_or.mpr ⟨hd', hf'⟩)

/-- A callback that says how an attempt of a PUSH message ended is heeded exactly
when the move that follows the send has been made. -/
theorem serially_callback_heeded_iff (hs : Serially svc neverReused polls s) {e : Issued}
    {message : DeviceMessage} {r : Except String StageOutcome} (he : e ∈ s.ledger)
    (hp : svc.registry.delivery e.pluginId = some plugin) (hpush : plugin.deliveryPattern = .PUSH)
    (hl : s.world.loaded e.messageId = some message) (hc : message.retryCount = e.retryCount)
    (hx : event.deliveryQueueId = some e.externalId) (hu : event.unsolicited = false)
    (hd : event.deliveryStatus = .DELIVERY_SUCCESSFUL ∨ event.deliveryStatus = .DELIVERY_FAILED)
    (hr : (processEvent svc event plugin).Runs (calmExec polls) s.world r w') :
    Heeded e.messageId e.retryCount r w' ↔
      message.deliveryStatus = some .DELIVERED_TO_NS ∨
        message.deliveryStatus = some .SENT_TO_DEVICE := by
  have hS : Sound svc (· = .PUSH) s.ledger s.world := hs.sound nofun
  have htruthy : truthy event.deliveryQueueId = some e.externalId := by
    rw [hx]
    exact truthy_some (hs.ledgerOK.nonempty e he)
  obtain ⟨h, hh⟩ := loaded_stored hl
  rcases hS e.messageId with hn | ⟨a, hst⟩
  · cases hn.hash.symm.trans hh
  obtain ⟨message', hm', hstatus, hcount⟩ := hst.loaded
  cases hl.symm.trans hm'
  have hc : some a.count = e.retryCount := hcount.symm.trans hc
  have hiff : (message.deliveryStatus = some .DELIVERED_TO_NS ∨
      message.deliveryStatus = some .SENT_TO_DEVICE) ↔ a.status.IsIndexed := by
    rw [hstatus]
    simp [DeliveryStatus.IsIndexed]
  rw [hiff]
  obtain ⟨out, rfl, hev⟩ := processEvent_runs hS hr
  constructor
  · intro hheed
    cases hev with
    | unsolicited hu' => cases hu.symm.trans hu'
    | unnamed _ hx' => cases htruthy.symm.trans hx'
    | unknown => rcases hheed with ⟨h, -⟩ | ⟨h, -⟩ <;> cases h
    | @applied x m _ _ _ _ hx' hm =>
      cases htruthy.symm.trans hx'
      obtain ⟨a', h', hst', -, -, -, hi', hl'⟩ := hS.of_index hm
      have hee : e.messageId = m := congrArg Issued.messageId (hs.unique e he _ hl' rfl)
      subst hee
      exact (hst.unique hst').1 ▸ hi'
  · intro hi
    obtain ⟨hindex, hid⟩ := hs.indexed he hst hc hi
    have hplugin : a.plugin = plugin := by
      obtain ⟨h, -, hstand, -⟩ := hst
      have ho := hstand.owned
      rw [hstand.plugin_id, hid, hp] at ho
      exact (Option.some.inj ho).symm
    exact hev.heeded hst hplugin hpush hc htruthy hu hd hindex

/-- The success of the sample command arrives once its send was answered. -/
theorem success_heeded : ∃ s message r w', Serially vendorService neverReused anyPoll s ∧
    s.world.loaded sampleId = some message ∧
    message.deliveryStatus = some .DELIVERED_TO_NS ∧
    (processEvent vendorService (sampleEvent .DELIVERY_SUCCESSFUL) (calinChirpstack {})).Runs
      (calmExec anyPoll) s.world r w' ∧ Heeded sampleId (some 0) r w' := by
  obtain ⟨s, hs, hp⟩ := exists_serial_run vendorService sampleSent
    (fun s => decide ((⟨"X", "calin-chirpstack", sampleId, some 0⟩ : Issued) ∈ s.ledger) &&
      (s.world.loaded sampleId).any (fun message => message.retryCount = some 0 ∧
        message.deliveryStatus = some .DELIVERED_TO_NS) &&
      ((processEvent vendorService (sampleEvent .DELIVERY_SUCCESSFUL) (calinChirpstack {})).play
        (scripted fun _ _ _ => true) granted s.world).any fun _ => true) (by decide +kernel)
  simp only [Bool.and_eq_true, decide_eq_true_eq] at hp
  obtain ⟨⟨he, hl⟩, hplay⟩ := hp
  obtain ⟨message, hm, hc⟩ := (Option.any_eq_true _ _).mp hl
  obtain ⟨hc, hst⟩ := of_decide_eq_true hc
  obtain ⟨r, w', hr, -⟩ := runs_of_script hplay
  have hp : vendorService.registry.delivery "calin-chirpstack" = some (calinChirpstack {}) := rfl
  exact ⟨s, message, r, w', hs, hm, hst, hr,
    (serially_callback_heeded_iff hs he hp rfl hm hc rfl rfl (.inl rfl) hr).mpr (.inl hst)⟩

/-- It arrives before that, and is lost. -/
theorem success_before_answer_lost : ∃ s message r w',
    Serially vendorService neverReused anyPoll s ∧
    (⟨"X", "calin-chirpstack", sampleId, some 0⟩ : Issued) ∈ s.ledger ∧
    s.world.loaded sampleId = some message ∧ message.retryCount = some 0 ∧
    (processEvent vendorService (sampleEvent .DELIVERY_SUCCESSFUL) (calinChirpstack {})).Runs
      (calmExec anyPoll) s.world r w' ∧ r = .ok .orphaned ∧ ¬ Heeded sampleId (some 0) r w' := by
  obtain ⟨s, hs, hp⟩ := exists_serial_run vendorService sampleAccepted
    (fun s => decide ((⟨"X", "calin-chirpstack", sampleId, some 0⟩ : Issued) ∈ s.ledger) &&
      (s.world.loaded sampleId).any (fun message => message.retryCount = some 0) &&
      ((processEvent vendorService (sampleEvent .DELIVERY_SUCCESSFUL) (calinChirpstack {})).play
        (scripted fun _ _ _ => true) granted s.world).any fun e => e.1.toOption = some .orphaned)
    (by decide +kernel)
  simp only [Bool.and_eq_true, decide_eq_true_eq] at hp
  obtain ⟨⟨he, hl⟩, hplay⟩ := hp
  obtain ⟨message, hm, hc⟩ := (Option.any_eq_true _ _).mp hl
  obtain ⟨r, w', hr, ho⟩ := runs_of_script hplay
  have ho : r = .ok .orphaned := by
    cases r with
    | ok out => simpa [Except.toOption] using ho
    | error e => simp [Except.toOption] at ho
  refine ⟨s, message, r, w', hs, he, hm, of_decide_eq_true hc, hr, ho, ?_⟩
  rintro (⟨h, -⟩ | ⟨h, -⟩) <;> rw [ho] at h <;> cases h

end DeviceMessaging
