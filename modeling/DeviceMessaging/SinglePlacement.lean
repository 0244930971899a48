import DeviceMessaging.Handlers
import DeviceMessaging.RedisQueues

namespace DeviceMessaging

open Effect

/-- No message is a member of two queues. -/
def Store.SinglePlacement (s : Store) : Prop :=
  ∀ id q₁ q₂, id ∈ s.redis.queues q₁ → id ∈ s.redis.queues q₂ → q₁ = q₂

/-- An `enterRetry` that commits finds the message where its `ZSCORE` found it,
or in no other queue: nothing has moved it on in between. -/
def ClaimStands (c : RedisCmd) (s : Store) : Prop :=
  match c with
  | .enterRetry a =>
    a.messageId ∈ s.redis.queues a.fromKey ∨ ∀ q, a.messageId ∈ s.redis.queues q → q = .retry
  | _ => True

/-- Every member of a queue sits there alone, and was named by a write. -/
structure Placement (s : Store) : Prop where
  single : s.SinglePlacement
  named : ∀ id q, id ∈ s.redis.queues q → id ∈ s.named

theorem placement_empty : Placement .empty where
  single _ _ _ h := absurd h SortedSet.not_mem_empty
  named _ _ h := absurd h SortedSet.not_mem_empty

/-- A command that puts no message anywhere keeps the placement. -/
theorem Placement.shrink {s t : Store} (h : Placement s)
    (hq : ∀ x q, x ∈ t.redis.queues q → x ∈ s.redis.queues q)
    (hn : ∀ x ∈ s.named, x ∈ t.named) : Placement t where
  single id q₁ q₂ h₁ h₂ := h.single id q₁ q₂ (hq _ _ h₁) (hq _ _ h₂)
  named id q hx := hn _ (h.named id q (hq _ _ hx))

/-- A command that takes a message out of one queue and puts it into another
keeps the placement, when the message was nowhere else. -/
theorem Placement.relocate {s t : Store} {id : MessageId} (source target : QueueKey)
    (h : Placement s) (hid : ∀ q, id ∈ s.redis.queues q → q = source ∨ q = target)
    (hq : ∀ x q, x ∈ t.redis.queues q →
      (x ∈ s.redis.queues q ∧ (x = id → q ≠ source)) ∨ (x = id ∧ q = target))
    (hn : ∀ x ∈ s.named, x ∈ t.named) (hnew : id ∈ t.named) : Placement t where
  single x q₁ q₂ h₁ h₂ := by
    have hold : ∀ q, x ∈ t.redis.queues q → x = id → q = target := by
      intro q hx hxid
      rcases hq x q hx with ⟨hs, hne⟩ | ⟨-, ht⟩
      · exact (hid q (hxid ▸ hs)).resolve_left (hne hxid)
      · exact ht
    by_cases hx : x = id
    · rw [hold q₁ h₁ hx, hold q₂ h₂ hx]
    · have hs : ∀ q, x ∈ t.redis.queues q → x ∈ s.redis.queues q := fun q hx' =>
        ((hq x q hx').resolve_right fun e => hx e.1).1
      exact h.single x q₁ q₂ (hs _ h₁) (hs _ h₂)
  named x q hx := by
    rcases hq x q hx with ⟨hs, -⟩ | ⟨rfl, -⟩
    · exact hn _ (h.named x q hs)
    · exact hnew

theorem placement_exec {s : Store} {c : RedisCmd} {id : MessageId} (h : Placement s)
    (hp : ClaimStands c s) (hf : c.Fresh id s) : Placement (s.exec c id).2 := by
  have hn := named_exec s c id
  cases c with
  | enqueueDeviceMessage dto queueKey =>
    have hno : ∀ q, id ∉ s.redis.queues q := fun q hq => (hf rfl).2 (h.named id q hq)
    refine h.relocate queueKey queueKey
      (fun q hq => absurd hq (hno q)) (fun x q hx => ?_) hn List.mem_cons_self
    rcases mem_enqueue.mp hx with hx | hx
    · exact .inl ⟨hx, fun e => absurd (e ▸ hx) (hno q)⟩
    · exact .inr hx
  | moveMessageBetweenQueues a =>
    by_cases hm : a.messageId ∈ s.redis.queues a.sourceQueue
    · refine h.relocate a.sourceQueue a.destinationQueue
        (fun q hq => .inl (h.single _ q _ hq hm)) (fun x q hx => ?_) hn List.mem_cons_self
      rcases mem_move hx with hx | ⟨rfl, rfl, -⟩
      · exact .inl hx
      · exact .inr ⟨rfl, rfl⟩
    · refine h.shrink (fun x q hx => ?_) hn
      rcases mem_move hx with hx | ⟨rfl, -, hx⟩
      · exact hx.1
      · exact absurd hx hm
  | fetchNextMessageInQueueAndMove a =>
    rcases mem_fetch a s.redis with he | ⟨id', hm, hx⟩
    · exact h.shrink (fun x q hx => he ▸ hx) hn
    · exact h.relocate a.sourceQueue a.destinationQueue (fun q hq => .inl (h.single _ q _ hq hm)) hx hn (h.named _ _ hm)
  | enterRetry a =>
    refine h.relocate a.fromKey .retry (fun q hq => ?_)
      (fun x q hx => mem_enterRetry hx) hn List.mem_cons_self
    rcases hp with hp | hp
    · exact .inl (h.single _ q _ hq hp)
    · exact .inr (hp q hq)
  | removeMessageFromQueue queueKey m => exact h.shrink (fun x q hx => (mem_zrem.mp hx).1) hn
  | messageFullCleanup m qs => exact h.shrink (fun x q hx => (mem_cleanup.mp hx).1) hn
  | zaddXx queueKey score m =>
    refine h.shrink (fun x q hx => ?_) hn
    cases score with
    | none => exact hx
    | some k =>
      rcases mem_update.mp hx with ⟨rfl, hx⟩ | ⟨-, hx⟩
      · exact SortedSet.mem_rescore.mp hx
      · exact hx
  | lockQueueForTimeMs queueKey ms =>
    refine h.shrink (fun x q hx => ?_) hn
    simp only [Store.exec, RedisCmd.run, lockQueueForTimeMs] at hx
    split at hx <;> exact hx
  | sremRateLimit k ids =>
    refine h.shrink (fun x q hx => ?_) hn
    rwa [← validateAndClean_queues k ids]
  | _ => exact h.shrink (fun x q hx => hx) hn

theorem placement_disturb {s : Store} (d : Disturbance) (h : Placement s) :
    Placement (s.disturb d) := by
  cases d <;> exact ⟨h.single, h.named⟩

/-- In every run whose `enterRetry` transactions all find their claim standing,
no message is ever a member of two queues. -/
theorem reached_single_placement {svc : Service} {weather : Weather} {x : Process}
    (hx : Reached svc weather (OnCommand ClaimStands) x) :
    x.world.store.SinglePlacement :=
  (store_invariant (I := Placement) placement_empty
    (fun _ _ _ h hp hf => placement_exec h hp hf) (fun _ d h => placement_disturb d h) hx).single

/-- Where the claim no longer stands, the transaction puts the message into the
retry queue beside the queue it was moved to. -/
theorem enterRetry_double_placement {s : Store} {a : EnterRetryMulti} {id : MessageId}
    (hp : ¬ ClaimStands (.enterRetry a) s) (hd : a.dueAt ≠ none) :
    ¬ (s.exec (.enterRetry a) id).2.SinglePlacement := by
  rw [ClaimStands, not_or, not_forall] at hp
  obtain ⟨hfrom, q, hq⟩ := hp
  obtain ⟨hq, hne⟩ := Classical.not_imp.mp hq
  have hqf : q ≠ a.fromKey := fun e => hfrom (e ▸ hq)
  obtain ⟨dueAt, hdue⟩ := Option.ne_none_iff_exists'.mp hd
  have hmem : ∀ p, (a.messageId ∈ s.redis.queues p ∧ p ≠ a.fromKey) ∨ p = .retry →
      a.messageId ∈ (s.exec (.enterRetry a) id).2.redis.queues p := by
    intro p h
    simp only [Store.exec, RedisCmd.run, enterRetryMulti, hdue, releaseConcurrencySlot_queues,
      delStaleIndex_queues]
    rw [mem_zadd, mem_zrem]
    exact h.imp (fun h => ⟨h.1, fun _ => h.2⟩) fun h => ⟨rfl, h⟩
  intro hs
  exact hne (hs _ _ _ (hmem q (.inl ⟨hq, hqf⟩)) (hmem .retry (.inr rfl)))

/-- The txack that hands the message on to the device stage. -/
def txackIngress : List (Choice Handler Oracle Disturbance) :=
  .start (.ingress "calin-chirpstack" (sampleEvent .SENT_TO_DEVICE)) :: turns 6 3 {}

def claimStandsCheck (c : RedisCmd) (s : Store) : Bool :=
  match c with
  | .enterRetry a => a.messageId ∈ s.redis.queues a.fromKey
  | _ => true

theorem claimStandsCheck_sound (c : RedisCmd) (s : Store) (h : claimStandsCheck c s = true) :
    ClaimStands c s := by
  cases c with
  | enterRetry a => exact .inl (of_decide_eq_true h)
  | _ => trivial

/-- The deadline alone: its retry leaves the message in one queue. -/
theorem relayNodeDeadline_single_placement :
    ∃ x, (x.world.store.SinglePlacement ∧ sampleId ∈ x.world.store.redis.queues .retry) ∧
      Reached vendorService {} (OnCommand ClaimStands) x := by
  obtain ⟨x, hx, hr⟩ := exists_reached vendorService {} (checkCommand claimStandsCheck)
    (sampleSend ++ relayNodeDeadline ++ turns 5 1 {})
    (fun x => sampleId ∈ x.world.store.redis.queues .retry)
    (onCommand_of_check claimStandsCheck_sound) (by decide +kernel)
  exact ⟨x, ⟨reached_single_placement hx, of_decide_eq_true hr⟩, hx⟩

/-- The txack between the deadline's `ZSCORE` and its transaction: the message
ends up both in the device stage and in retry. -/
theorem relayNode_race_double_placement :
    ¬ ∀ x, Reached vendorService {} (fun _ _ => True) x → x.world.store.SinglePlacement := by
  intro h
  obtain ⟨x, hx, hr⟩ := exists_reached vendorService {} (fun _ _ => true)
    (sampleSend ++ relayNodeDeadline ++ txackIngress ++ turns 5 1 {})
    (fun x => sampleId ∈ x.world.store.redis.queues .device ∧
      sampleId ∈ x.world.store.redis.queues .retry)
    (fun _ _ _ => trivial) (by decide +kernel)
  obtain ⟨hd, hr⟩ := of_decide_eq_true hr
  exact absurd (h x hx _ _ _ hd hr) (by decide)

end DeviceMessaging
