import DeviceMessaging.Handlers
import DeviceMessaging.RedisMessages

namespace DeviceMessaging

open Effect

/-- Every stored hash holds what an enqueue under its id wrote. -/
structure NoPhantom (s : Store) : Prop where
  stored : ∀ id h, s.redis.messages id = some h → ∃ dto, (id, dto) ∈ s.enqueued ∧ h.HoldsCreate dto
  named : ∀ e ∈ s.enqueued, e.1 ∈ s.named

/-- An `enterRetry` that commits still finds the hash it writes to. -/
def HashStands (c : RedisCmd) (s : Store) : Prop :=
  match c with
  | .enterRetry a => s.redis.messages a.messageId ≠ none
  | _ => True

theorem noPhantom_empty : NoPhantom .empty where
  stored _ _ h := nomatch h
  named _ h := nomatch h

theorem enqueued_exec (s : Store) (c : RedisCmd) (id : MessageId) :
    ∀ e ∈ s.enqueued, e ∈ (s.exec c id).2.enqueued := by
  intro e he
  cases c <;> simp [Store.exec, Store.note, he]

theorem enqueued_named {s : Store} {c : RedisCmd} {id : MessageId}
    (hs : ∀ e ∈ s.enqueued, e.1 ∈ s.named) :
    ∀ e ∈ (s.exec c id).2.enqueued, e.1 ∈ (s.exec c id).2.named := by
  intro e he
  cases c with
  | enqueueDeviceMessage dto q =>
    rcases List.mem_append.mp he with he | he
    · exact List.mem_cons_of_mem _ (hs e he)
    · rw [List.mem_singleton] at he
      exact he ▸ List.mem_cons_self
  | _ => exact named_exec _ _ _ _ (hs e he)

/-- A write after which every hash stems from one that was there before. -/
theorem holds_update {s : Store} {m : MessageId} {h h' : MessageHash}
    {P : MessageId × CreateDeviceMessage → Prop}
    (hs : ∀ id h, s.redis.messages id = some h → ∃ dto, P (id, dto) ∧ h.HoldsCreate dto)
    (hh : s.redis.messages m = some h) (hc : ∀ dto, h.HoldsCreate dto → h'.HoldsCreate dto) :
    ∀ id g, Function.update s.redis.messages m (some h') id = some g →
      ∃ dto, P (id, dto) ∧ g.HoldsCreate dto := by
  intro id g hg
  rcases update_some_cases hg with ⟨rfl, rfl⟩ | ⟨-, hg⟩
  · obtain ⟨dto, hdto, ho⟩ := hs id h hh
    exact ⟨dto, hdto, hc dto ho⟩
  · exact hs id g hg

theorem movedHash_holds {a : MoveArgs} {h : MessageHash} (dto : CreateDeviceMessage)
    (hc : h.HoldsCreate dto) : (movedHash a h).HoldsCreate dto := by
  unfold movedHash setDelivery
  split <;> exact hc.evolve rfl (.inr (by simp)) (.inl rfl)

theorem noPhantom_exec {s : Store} {c : RedisCmd} {id : MessageId} (hs : NoPhantom s)
    (hp : HashStands c s) (hf : c.Fresh id s) : NoPhantom (s.exec c id).2 := by
  refine ⟨?_, enqueued_named hs.named⟩
  have hold : ∀ x h, s.redis.messages x = some h →
      ∃ dto, (x, dto) ∈ (s.exec c id).2.enqueued ∧ h.HoldsCreate dto := by
    intro x h hx
    obtain ⟨dto, hdto, hc⟩ := hs.stored x h hx
    exact ⟨dto, enqueued_exec s c id _ hdto, hc⟩
  have hnew : ∀ dto q, c = .enqueueDeviceMessage dto q →
      (id, dto) ∈ (s.exec c id).2.enqueued := by
    rintro dto q rfl
    simp [Store.exec, Store.note]
  have hw := exec_hashWrite s c id
  generalize (s.exec c id).2.redis.messages = f at hw ⊢
  generalize (s.exec c id).2.enqueued = es at hold hnew ⊢
  cases hw with
  | keep => exact hold
  | @enqueue dto q =>
    have hnone : s.redis.messages id = none := by
      rw [Option.eq_none_iff_forall_ne_some]
      intro h hh
      obtain ⟨dto', hdto, -⟩ := hs.stored id h hh
      exact (hf rfl).2 (hs.named _ hdto)
    rw [hnone, Option.getD_none, MessageHash.write_empty]
    intro x h hx
    rcases update_some_cases hx with ⟨rfl, rfl⟩ | ⟨-, hx⟩
    · exact ⟨dto, hnew dto q rfl, holdsCreate_serialize dto⟩
    · exact hold x h hx
  | @move a h hh => exact holds_update (P := (· ∈ es)) hold hh movedHash_holds
  | @pick a m h hh =>
    refine holds_update (P := (· ∈ es)) hold hh fun dto hc => ?_
    exact hc.evolve rfl (.inr (by simp [pickedHash])) (.inl rfl)
  | @retry a =>
    obtain ⟨h, hh⟩ := Option.ne_none_iff_exists'.mp hp
    rw [hh, Option.getD_some]
    refine holds_update (P := (· ∈ es)) hold hh fun dto hc => ?_
    exact hc.evolve rfl (.inr (by simp [retryHash, setRetry])) (.inr (by simp [retryHash, setRetry]))
  | @purge m =>
    exact fun x h hx => hold x h (update_none_cases hx).2

theorem noPhantom_disturb {s : Store} (d : Disturbance) (hs : NoPhantom s) :
    NoPhantom (s.disturb d) := by
  cases d with
  | expireMessage id =>
    exact ⟨fun x h hx => hs.stored x h (update_none_cases hx).2, hs.named⟩
  | _ => exact ⟨hs.stored, hs.named⟩

/-- In every run whose `enterRetry` transactions all find the hash they write to,
every stored hash holds the fields of its enqueue and reads back as a message. -/
theorem reached_no_phantom {svc : Service} {weather : Weather} {x : Process}
    (hx : Reached svc weather (OnCommand HashStands) x) :
    ∀ id h, x.world.store.redis.messages id = some h →
      (∃ dto, (id, dto) ∈ x.world.store.enqueued ∧ h.HoldsCreate dto) ∧
      ∃ m, deserializeMessage id h = .ok m := by
  have hs := store_invariant (I := NoPhantom) noPhantom_empty
    (fun _ _ _ h hp hf => noPhantom_exec h hp hf) (fun _ d h => noPhantom_disturb d h) hx
  intro id h hh
  obtain ⟨dto, hdto, hc⟩ := hs.stored id h hh
  exact ⟨⟨dto, hdto, hc⟩, deserializeMessage_ok id hc.decodes⟩

/-- Where the hash is gone, the transaction creates one that cannot be loaded. -/
theorem enterRetry_phantom {s : Store} {a : EnterRetryMulti} {id : MessageId}
    (hp : ¬ HashStands (.enterRetry a) s) :
    ∃ h, (s.exec (.enterRetry a) id).2.redis.messages a.messageId = some h ∧
      ∀ m, deserializeMessage a.messageId h ≠ .ok m := by
  have hnone : s.redis.messages a.messageId = none := not_not.mp hp
  have he := congrFun (enterRetry_messages a s.redis) a.messageId
  rw [hnone, Function.update_self] at he
  refine ⟨_, he, fun m hm => ?_⟩
  have hd := (deserializeMessage_fields hm).1
  simp [retryHash, setRetry] at hd

def hashStandsCheck (c : RedisCmd) (s : Store) : Bool :=
  match c with
  | .enterRetry a => (s.redis.messages a.messageId).isSome
  | _ => true

theorem hashStandsCheck_sound (c : RedisCmd) (s : Store) (h : hashStandsCheck c s = true) :
    HashStands c s := by
  cases c with
  | enterRetry a => exact fun hn => by simp [hashStandsCheck, hn] at h
  | _ => trivial

/-- The deadline alone: its retry leaves a message that loads. -/
theorem relayNodeDeadline_loads :
    ∃ x : Process, ∃ m h, x.world.store.redis.messages sampleId = some h ∧
      h.deliveryStatus = some .TO_RETRY ∧ deserializeMessage sampleId h = .ok m := by
  obtain ⟨x, hx, hr⟩ := exists_reached vendorService { expiry := true }
    (checkCommand hashStandsCheck) (sampleSend ++ relayNodeDeadline ++ turns 5 1 {})
    (fun x => (x.world.store.redis.messages sampleId).any
      fun h => h.deliveryStatus = some .TO_RETRY)
    (onCommand_of_check hashStandsCheck_sound) (by decide +kernel)
  obtain ⟨h, hh, hr⟩ := (Option.any_eq_true _ _).mp hr
  obtain ⟨-, m, hm⟩ := reached_no_phantom hx sampleId h hh
  exact ⟨x, m, h, hh, of_decide_eq_true hr, hm⟩

/-- The hash expires between the deadline's `ZSCORE` and its transaction: what is
stored afterwards has no device and does not load. -/
theorem relayNode_expiry_phantom :
    ¬ ∀ x, Reached vendorService { expiry := true } (fun _ _ => True) x →
      ∀ id h, x.world.store.redis.messages id = some h →
        (∃ dto, (id, dto) ∈ x.world.store.enqueued ∧ h.HoldsCreate dto) ∧
        ∃ m, deserializeMessage id h = .ok m := by
  intro hall
  obtain ⟨x, hx, hr⟩ := exists_reached vendorService { expiry := true } (fun _ _ => true)
    (List.flatten [sampleSend, relayNodeDeadline, [.disturb (.expireMessage sampleId)],
      turns 5 1 {}])
    (fun x => (x.world.store.redis.messages sampleId).any fun h => h.device = none)
    (fun _ _ _ => trivial) (by decide +kernel)
  obtain ⟨h, hh, hr⟩ := (Option.any_eq_true _ _).mp hr
  obtain ⟨-, m, hm⟩ := hall x hx sampleId h hh
  have hd := (deserializeMessage_fields hm).1
  rw [of_decide_eq_true hr] at hd
  cases hd

end DeviceMessaging
