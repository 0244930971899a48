import DeviceMessaging.NoPhantom
import DeviceMessaging.RedisIndexes

namespace DeviceMessaging

open Effect

/-- The hash holds what an enqueue under its id wrote, unless it has no device. -/
def Store.Stems (s : Store) (id : MessageId) (h : MessageHash) : Prop :=
  h.device = none ∨ ∃ dto, (id, dto) ∈ s.enqueued ∧ h.HoldsCreate dto

def CreateDeviceMessage.indexKey (dto : CreateDeviceMessage) : Option String :=
  correlationKey dto.correlationId dto.phase

/-- Whatever is stored stems from enqueues, in every run. -/
structure Provenance (s : Store) : Prop where
  stored : ∀ id h, s.redis.messages id = some h → s.Stems id h
  indexed : ∀ z id, s.redis.correlations z = some id →
    ∃ dto, (id, dto) ∈ s.enqueued ∧ dto.indexKey = some z
  unique : ∀ e ∈ s.enqueued, ∀ e' ∈ s.enqueued, e.1 = e'.1 → e = e'
  enqueued : ∀ e ∈ s.enqueued, e.1 ∈ s.named
  named : ∀ id, s.redis.messages id ≠ none → id ∈ s.named

variable {s t : Store} {c : RedisCmd} {i id : MessageId} {h : MessageHash}

theorem Store.Stems.mono (hs : s.Stems id h) (he : ∀ e ∈ s.enqueued, e ∈ t.enqueued) :
    t.Stems id h := by
  rcases hs with hd | ⟨dto, hdto, hc⟩
  · exact .inl hd
  · exact .inr ⟨dto, he _ hdto, hc⟩

/-- Rewriting the fields that change keeps the origin of a hash. -/
theorem Store.Stems.evolve {h' : MessageHash} (hs : s.Stems id h) (hi : h'.immutable = h.immutable)
    (hst : h'.deliveryStatus = h.deliveryStatus ∨ h'.deliveryStatus ≠ none)
    (hf : h'.failureHistory = h.failureHistory ∨ h'.failureHistory ≠ some .unreadable) :
    s.Stems id h' := by
  rcases hs with hd | ⟨dto, hdto, hc⟩
  · exact .inl ((congrArg MessageHash.device hi).trans hd)
  · exact .inr ⟨dto, hdto, hc.evolve hi hst hf⟩

theorem movedHash_immutable (a : MoveArgs) (h : MessageHash) :
    (movedHash a h).immutable = h.immutable ∧ (movedHash a h).deliveryStatus ≠ none ∧
      (movedHash a h).failureHistory = h.failureHistory := by
  unfold movedHash setDelivery
  split <;> exact ⟨rfl, by simp, rfl⟩

theorem provenance_empty : Provenance .empty where
  stored _ _ h := nomatch h
  indexed _ _ h := nomatch h
  unique _ h := nomatch h
  enqueued _ h := nomatch h
  named _ h := absurd rfl h

theorem stems_exec (hs : Provenance s) (hf : c.Fresh i s) :
    ∀ id h, (s.exec c i).2.redis.messages id = some h → (s.exec c i).2.Stems id h := by
  have hold : ∀ id h, s.redis.messages id = some h → (s.exec c i).2.Stems id h :=
    fun id h hh => (hs.stored id h hh).mono (enqueued_exec s c i)
  have hnew : ∀ dto q, c = .enqueueDeviceMessage dto q → (i, dto) ∈ (s.exec c i).2.enqueued := by
    rintro dto q rfl
    simp [Store.exec, Store.note]
  have hw := exec_hashWrite s c i
  have hput : ∀ {m : MessageId} {g : MessageHash}, (s.exec c i).2.Stems m g →
      ∀ id h, Function.update s.redis.messages m (some g) id = some h →
        (s.exec c i).2.Stems id h := by
    intro m g hg id h hh
    rcases update_some_cases hh with ⟨rfl, rfl⟩ | ⟨-, hh⟩
    · exact hg
    · exact hold id h hh
  generalize (s.exec c i).2.redis.messages = f at hw ⊢
  cases hw with
  | keep => exact hold
  | @enqueue dto q =>
    refine hput (.inr ⟨dto, hnew dto q rfl, ?_⟩)
    have hnone : s.redis.messages i = none := by
      by_contra hne
      exact (hf rfl).2 (hs.named i hne)
    rw [hnone, Option.getD_none, MessageHash.write_empty]
    exact holdsCreate_serialize dto
  | @move a h hh =>
    obtain ⟨hi, hst, hh'⟩ := movedHash_immutable a h
    exact hput ((hold _ h hh).evolve hi (.inr hst) (.inl hh'))
  | @pick a m h hh => exact hput ((hold m h hh).evolve rfl (.inr (by simp [pickedHash])) (.inl rfl))
  | @retry a =>
    refine hput ?_
    cases hm : s.redis.messages a.messageId with
    | none => exact .inl rfl
    | some h =>
      exact (hold _ h hm).evolve rfl (.inr (by simp [retryHash, setRetry]))
        (.inr (by simp [retryHash, setRetry]))
  | @purge m => exact fun id h hh => hold id h (update_none_cases hh).2

theorem named_messages_exec (hs : Provenance s) :
    ∀ id, (s.exec c i).2.redis.messages id ≠ none → id ∈ (s.exec c i).2.named := by
  have hold : ∀ id, s.redis.messages id ≠ none → id ∈ (s.exec c i).2.named :=
    fun id hid => named_exec s c i id (hs.named id hid)
  have hput : ∀ {m : MessageId} {g : Option MessageHash}, m ∈ (s.exec c i).2.named →
      ∀ id, Function.update s.redis.messages m g id ≠ none → id ∈ (s.exec c i).2.named := by
    intro m g hm id hid
    by_cases e : id = m
    · exact e ▸ hm
    · rw [Function.update_of_ne e] at hid
      exact hold id hid
  have hnew : ∀ id, id ∈ c.names → id ∈ (s.exec c i).2.named := by
    intro id hid
    cases c with
    | enqueueDeviceMessage dto q => cases hid
    | _ => exact List.mem_append_left _ hid
  have hdraw : ∀ dto q, c = .enqueueDeviceMessage dto q → i ∈ (s.exec c i).2.named := by
    rintro dto q rfl
    exact List.mem_cons_self
  have hw := exec_hashWrite s c i
  generalize (s.exec c i).2.redis.messages = f at hw ⊢
  cases hw with
  | keep => exact hold
  | @enqueue dto q => exact hput (hdraw dto q rfl)
  | @move a h hh => exact hput (hnew _ List.mem_cons_self)
  | @pick a m h hh => exact hput (hold m (by simp [hh]))
  | @retry a => exact hput (hnew _ List.mem_cons_self)
  | @purge m => exact hput (hnew _ List.mem_cons_self)

/-- Only an enqueue and a purge write the correlation index. -/
theorem correlations_keep (he : ∀ dto q, c ≠ .enqueueDeviceMessage dto q)
    (hp : ∀ m qs, c ≠ .messageFullCleanup m qs) :
    (s.exec c i).2.redis.correlations = s.redis.correlations := by
  cases c with
  | enqueueDeviceMessage dto q => exact absurd rfl (he dto q)
  | messageFullCleanup m qs => exact absurd rfl (hp m qs)
  | moveMessageBetweenQueues a =>
    simp only [Store.exec, RedisCmd.run]
    rcases move_cases a s.redis with ⟨-, he⟩ | ⟨-, -, he⟩ | ⟨-, -, he⟩ | ⟨-, g, k, -, -, he⟩ <;>
      rw [he]
    · rfl
    · rfl
    · exact moveClaimed_correlations
  | fetchNextMessageInQueueAndMove a =>
    simp only [Store.exec, RedisCmd.run]
    rcases fetch_cases a s.redis with he | he | ⟨m, rest, -, ⟨-, he⟩ | ⟨-, he⟩ | ⟨g, t, -, -, he⟩⟩ <;>
      rw [he]
    · rfl
    · exact popSource_indexes.correlations
    · exact popSource_indexes.correlations
    · exact pickClaimed_correlations.trans popSource_indexes.correlations
  | enterRetry a => exact enterRetry_correlations
  | zaddXx q score m => cases score <;> rfl
  | lockQueueForTimeMs q ms =>
    simp only [Store.exec, RedisCmd.run, lockQueueForTimeMs]
    split <;> rfl
  | sremRateLimit k ids => exact validateAndClean_correlations
  | _ => rfl

/-- Only an enqueue adds to the correlation index, under its own key. -/
theorem correlations_exec {z : String} (hz : (s.exec c i).2.redis.correlations z = some id) :
    s.redis.correlations z = some id ∨
      ∃ dto q, c = .enqueueDeviceMessage dto q ∧ id = i ∧ dto.indexKey = some z := by
  by_cases he : ∃ dto q, c = .enqueueDeviceMessage dto q
  · obtain ⟨dto, q, rfl⟩ := he
    rcases enqueue_correlations.mp hz with ⟨hk, rfl⟩ | ⟨-, hz⟩
    · exact .inr ⟨dto, q, rfl, rfl, hk⟩
    · exact .inl hz
  by_cases hp : ∃ m qs, c = .messageFullCleanup m qs
  · obtain ⟨m, qs, rfl⟩ := hp
    exact .inl (cleanup_correlations.mp hz).2
  rw [correlations_keep (fun dto q e => he ⟨dto, q, e⟩) fun m qs e => hp ⟨m, qs, e⟩] at hz
  exact .inl hz

theorem provenance_exec (hs : Provenance s) (hf : c.Fresh i s) : Provenance (s.exec c i).2 where
  stored := stems_exec hs hf
  indexed z id hz := by
    rcases correlations_exec hz with hz | ⟨dto, q, rfl, rfl, hk⟩
    · obtain ⟨dto, hdto, hk⟩ := hs.indexed z id hz
      exact ⟨dto, enqueued_exec s c i _ hdto, hk⟩
    · exact ⟨dto, by simp [Store.exec, Store.note], hk⟩
  unique := by
    cases c with
    | enqueueDeviceMessage dto q =>
      have hne : ∀ e ∈ s.enqueued, e.1 ≠ i := fun e he hi => (hf rfl).2 (hi ▸ hs.enqueued e he)
      intro e he e' he' hid
      rcases List.mem_append.mp he with he | he <;> rcases List.mem_append.mp he' with he' | he'
      · exact hs.unique e he e' he' hid
      · exact absurd (hid.trans (by rw [List.mem_singleton.mp he'])) (hne e he)
      · exact absurd (hid.symm.trans (by rw [List.mem_singleton.mp he])) (hne e' he')
      · rw [List.mem_singleton.mp he, List.mem_singleton.mp he']
    | _ => exact hs.unique
  enqueued := enqueued_named hs.enqueued
  named := named_messages_exec hs

theorem provenance_disturb (hs : Provenance s) (d : Disturbance) : Provenance (s.disturb d) := by
  cases d with
  | elapse ms => exact ⟨hs.stored, hs.indexed, hs.unique, hs.enqueued, hs.named⟩
  | expireMessage m =>
    refine ⟨fun id h hh => hs.stored id h (update_none_cases hh).2, hs.indexed, hs.unique,
      hs.enqueued, fun id hid => hs.named id fun hn => hid ?_⟩
    obtain ⟨h, hh⟩ := Option.ne_none_iff_exists'.mp hid
    exact absurd hn (by simp [(update_none_cases hh).2])
  | expireCorrelation key =>
    exact ⟨hs.stored, fun z id hz => hs.indexed z id (update_none_cases hz).2, hs.unique,
      hs.enqueued, hs.named⟩
  | expireExternal x => exact ⟨hs.stored, hs.indexed, hs.unique, hs.enqueued, hs.named⟩

theorem reached_provenance {svc : Service} {weather : Weather} {p : RedisCmd → Store → Prop}
    {x : Process} (hx : Reached svc weather (OnCommand p) x) : Provenance x.world.store :=
  store_invariant provenance_empty (fun _ _ _ hs _ hf => provenance_exec hs hf)
    (fun _ d hs => provenance_disturb hs d) hx

/-- A message that loads has a request, and the plugin the request named. -/
theorem Provenance.requested (hs : Provenance s) {message : DeviceMessage}
    (hh : s.redis.messages id = some h) (hm : deserializeMessage id h = .ok message) :
    ∃ create, (id, create) ∈ s.enqueued ∧ message.pluginId = some create.pluginId := by
  obtain ⟨hdev, -, hp, -⟩ := deserializeMessage_fields hm
  rcases hs.stored id h hh with hnone | ⟨create, hcreate, hholds⟩
  · cases hnone.symm.trans hdev
  · have hplugin : h.pluginId = some create.pluginId :=
      congrArg MessageHash.pluginId hholds.fields
    exact ⟨create, hcreate, hp.trans hplugin⟩

end DeviceMessaging
