import DeviceMessaging.Serial
import DeviceMessaging.StoredEvents

namespace DeviceMessaging

open Effect Prog

variable {svc : Service} {fresh : Freshness} {polls : PollRule} {s s' : Serial} {w w' : World}
  {g : EndPhase} {store : Store}

/-- Whose end has been told has been purged, or the handler owes the purge. -/
structure EndsPurged (g : EndPhase) (s : Store) : Prop where
  names : s.NamesPlugins
  payloads : s.PayloadsPersisted
  purged : ∀ id, s.Reported id → id ∈ s.purged ∨ g = .emitted id

theorem endsPurged_empty : EndsPurged .idle .empty where
  names := namesPlugins_empty
  payloads _ _ h := by cases h
  purged _ h := by
    obtain ⟨_, hr, -⟩ := h
    cases hr

theorem EndsPurged.idle (h : EndsPurged g store) (hg : g.Calm) : EndsPurged .idle store :=
  ⟨h.names, h.payloads, fun id hr => .inl ((h.purged id hr).resolve_right (hg id))⟩

theorem exec_purged (c : RedisCmd) (i : MessageId) :
    ∀ id, id ∈ store.purged ∨ (Cmd.redis c).purges = some id → id ∈ (store.exec c i).2.purged := by
  intro id h
  cases c with
  | messageFullCleanup m qs =>
    change id ∈ m.id :: store.purged
    rcases h with h | h
    · exact List.mem_cons_of_mem _ h
    · exact List.mem_cons.mpr (.inl (Option.some.inj h).symm)
  | _ =>
    rcases h with h | h
    · exact h
    · cases h

/-- A command that is allowed settles a purge that is owed. -/
theorem purged_of_allowed {c : Cmd} {id : MessageId} (hg : g.allows c)
    (h : id ∈ store.purged ∨ g = .emitted id) : id ∈ store.purged ∨ c.purges = some id := by
  rcases h with h | rfl
  · exact .inl h
  · exact .inr hg

/-- A command that Redis answers, of a handler that owes what it has told. -/
theorem endsPurged_turn {o : Oracle} {c : Cmd} {r : Reply c} (h : EndsPurged g w.store)
    (hg : g.allows c) (ho : o.fault = none) (hr : respond o c w = some (r, w')) :
    EndsPurged (g.next c r) w'.store := by
  cases c with
  | redis c =>
    obtain ⟨-, ⟨-, rfl, hw⟩ | ⟨hf, -⟩ | ⟨hf, -⟩⟩ := execRedis_cases hr
    · rw [hw]
      refine ⟨namesPlugins_exec h.names, payloadsPersisted_exec o.id h.payloads, fun id hid => ?_⟩
      rcases reported_exec hid with hid | ⟨record, now, rfl, ht⟩
      · exact .inl (exec_purged c o.id id (purged_of_allowed hg (h.purged id hid)))
      · have hnext : g.next (.redis (.webhookEnqueue record now)) (.ok ()) = .emitted id := by
          simp [EndPhase.next, ht]
        exact .inr hnext
    · exact absurd (ho.symm.trans hf) (by decide)
    · exact absurd (ho.symm.trans hf) (by decide)
  | _ =>
    rcases respond_store hr with he | ⟨c', he, -⟩
    · rw [he]
      exact h
    · cases he

theorem endsPurged_runs {α : Type} {p : Engine α} {r : Except String α}
    (hp : p.wp endWatch (fun _ g => g.Calm) (fun _ g => g.Calm) g) (h : EndsPurged g w.store)
    (hr : p.Runs (calmExec polls) w r w') : EndsPurged .idle w'.store := by
  induction p generalizing g w with
  | pure a =>
    obtain ⟨-, rfl⟩ := hr
    exact h.idle hp
  | fail e =>
    obtain ⟨-, rfl⟩ := hr
    exact h.idle hp
  | step c k ih =>
    obtain ⟨v, w₁, ⟨-, o, ho, hv⟩, hr⟩ := hr
    have hfits := respond_fits h.names hv
    exact ih v (hp.2 v _ ⟨hfits, rfl⟩) (endsPurged_turn h hp.1 ho hv) hr

/-- A program that tells nothing. -/
theorem endsPurged_quiet {α : Type} {p : Engine α} {r : Except String α}
    (hp : p.wp cancelWatch (fun _ _ => True) (fun _ _ => True) .idle) (h : EndsPurged .idle w.store)
    (hr : p.Runs (calmExec polls) w r w') : EndsPurged .idle w'.store := by
  induction p generalizing w with
  | pure a =>
    obtain ⟨-, rfl⟩ := hr
    exact h
  | fail e =>
    obtain ⟨-, rfl⟩ := hr
    exact h
  | step c k ih =>
    obtain ⟨v, w₁, ⟨-, o, ho, hv⟩, hr⟩ := hr
    refine ih v (hp.2 v .idle rfl) ?_ hr
    rcases respond_store hv with he | ⟨c', rfl, -, he⟩ <;> rw [he]
    · exact h
    · refine ⟨namesPlugins_exec h.names, payloadsPersisted_exec _ h.payloads, fun id hid => ?_⟩
      rcases reported_exec hid with hid | ⟨record, now, rfl, -⟩
      · have hold := (h.purged id hid).resolve_right (calm_idle id)
        exact .inl (exec_purged c' _ id (.inl hold))
      · exact absurd rfl (hp.1 record now)

theorem cancelMessages_quiet (messages : List DeviceMessage) :
    (cancelMessages svc messages).Keeps cancelWatch fun _ => True := by
  induction messages with
  | nil => exact keeps_pure _
  | cons message rest ih =>
    refine keeps_bind (cancelOneMessage_keeps quiet_watch message) fun _ => ?_
    exact keeps_bind ih fun _ => keeps_pure _

theorem cancelOne_quiet (correlationId : String) :
    (cancelOne svc correlationId).Keeps cancelWatch fun _ => True := by
  have hload : (getAllMessagesForCorrelationId correlationId).Keeps cancelWatch fun _ => True :=
    keeps_bind (keeps_redis (quiet_watch _ trivial)) (loadIndexed_keeps quiet_watch)
  unfold cancelOne
  refine keeps_bind hload fun messages => ?_
  split
  next => exact keeps_pure _
  next => exact keeps_bind (cancelMessages_quiet _) fun _ => keeps_pure _

theorem endsPurged_request (hw : svc.webhook = true) {a : Request} {p : Engine Unit}
    {r : Except String Unit} (h : EndsPurged .idle s.world.store)
    (hh : s.handler svc a = some (w, p)) (hr : p.Runs (calmExec polls) w r w') :
    EndsPurged .idle w'.store := by
  have hidle : ∀ {p : Engine Unit}, FromIdle p → p.Runs (calmExec polls) s.world r w' →
      EndsPurged .idle w'.store :=
    fun hp hr => endsPurged_runs (fromCalm_of_fromIdle hp) h hr
  cases a with
  | enqueue create =>
    cases hh
    exact hidle (fromIdle_bind (enqueue_idle create) fun _ => fromIdle_pure _) hr
  | distribute q =>
    cases hh
    exact hidle (distributeQueue_idle q) hr
  | answer pluginId message token sent =>
    simp only [Serial.handler] at hh
    split at hh
    next =>
      obtain ⟨plugin, -, he⟩ := Option.map_eq_some_iff.mp hh
      cases he
      have hanswered : EndsPurged .idle
          (s.world.answered (.send pluginId message token)).store := h
      exact endsPurged_runs (settleSend_endsCalm hw plugin message token sent) hanswered hr
    next => cases hh
  | event pluginId event =>
    obtain ⟨plugin, -, he⟩ := Option.map_eq_some_iff.mp hh
    cases he
    exact hidle (fromIdle_bind (processEvent_idle hw event plugin) fun _ => fromIdle_pure _) hr
  | due queue now messageId =>
    simp only [Serial.handler] at hh
    split at hh
    next =>
      cases hh
      exact endsPurged_runs (drainMember_calm hw queue now messageId .idle calm_idle) h hr
    next => cases hh
  | cancel correlationId =>
    cases hh
    refine endsPurged_quiet (keeps_bind (cancelOne_quiet correlationId) (fun _ => keeps_pure _)
      .idle trivial) h hr

/-- Where handlers run one at a time, whose end is told is purged when its handler ends. -/
theorem Serially.endsPurged (hw : svc.webhook = true) (hs : Serially svc fresh polls s) :
    EndsPurged .idle s.world.store := by
  induction hs with
  | refl => exact endsPurged_empty
  | tail _ hstep ih =>
    cases hstep with
    | request a hh hr => exact endsPurged_request hw ih hh hr
    | _ => exact ⟨ih.names, ih.payloads, ih.purged⟩

end DeviceMessaging
