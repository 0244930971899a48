import DeviceMessaging.CalmStep
import DeviceMessaging.RedisIndexes
import DeviceMessaging.RedisMessages
import DeviceMessaging.RedisQueues

namespace DeviceMessaging

/-- An external id a vendor gave to an attempt at a message. -/
structure Issued where
  externalId : String
  pluginId : PluginId
  messageId : MessageId
  retryCount : ParsedInt
  deriving DecidableEq

/-- No message but `x` was ever given the id. -/
def Exclusive (ledger : List Issued) (y : String) (x : MessageId) : Prop :=
  ∀ e ∈ ledger, e.externalId = y → e.messageId = x

variable (ledger : List Issued)

/-- From one keyspace to another a message keeps its hash, its queues and the
indexes of the ids that are its alone, and gains no reference. -/
structure Spared (x : MessageId) (r r' : Redis) : Prop where
  hash : r'.messages x = r.messages x
  queues : ∀ q, x ∈ r'.queues q ↔ x ∈ r.queues q
  rateLimits : ∀ k, x ∈ r'.rateLimits k → x ∈ r.rateLimits k
  externals : ∀ y, r'.externals y = some x → r.externals y = some x
  correlations : ∀ y, r'.correlations y = some x → r.correlations y = some x
  index : ∀ y, Exclusive ledger y x → r.externals y = some x → r'.externals y = some x

/-- The message whose send a task is. -/
def Task.sends (t : Task) : Option MessageId :=
  match t with
  | .send _ message _ => some message.id
  | _ => none

/-- The sends of a message that have not been answered. -/
def World.outstanding (w : World) (m : MessageId) : List Task :=
  w.tasks.filter fun t => t.sends = some m

/-- The message is spared, and so are its sends. -/
structure Untouched (x : MessageId) (w w' : World) : Prop
    extends Spared ledger x w.store.redis w'.store.redis where
  outstanding : w'.outstanding x = w.outstanding x
  held : (w'.inFlightSends x).isSome = (w.inFlightSends x).isSome
  named : x ∈ w.store.named → x ∈ w'.store.named
  purged : x ∈ w'.store.purged → x ∈ w.store.purged

/-- The message is untouched, and no terminal event of it is handed over. -/
structure Uninvolved (x : MessageId) (w w' : World) : Prop
    extends Untouched ledger x w w' where
  outcomes : w'.store.outcomes x = w.store.outcomes x

/-- Only the one message is involved. -/
def Only (m : MessageId) (w w' : World) : Prop :=
  ∀ x, x ≠ m → Uninvolved ledger x w w'

variable {ledger} {r r₁ r₂ : Redis} {w w₁ w₂ : World} {m x id : MessageId}

theorem Issued.not_exclusive {e : Issued} (he : e ∈ ledger) (hx : x ≠ e.messageId) :
    ¬ Exclusive ledger e.externalId x :=
  fun h => hx (h e he rfl).symm

theorem Spared.refl : Spared ledger x r r where
  hash := rfl
  queues _ := Iff.rfl
  rateLimits _ h := h
  externals _ h := h
  correlations _ h := h
  index _ _ h := h

theorem Spared.trans (h₁ : Spared ledger x r r₁) (h₂ : Spared ledger x r₁ r₂) :
    Spared ledger x r r₂ where
  hash := h₂.hash.trans h₁.hash
  queues q := (h₂.queues q).trans (h₁.queues q)
  rateLimits k h := h₁.rateLimits k (h₂.rateLimits k h)
  externals y h := h₁.externals y (h₂.externals y h)
  correlations y h := h₁.correlations y (h₂.correlations y h)
  index y hy h := h₂.index y hy (h₁.index y hy h)

theorem Untouched.refl : Untouched ledger x w w :=
  ⟨.refl, rfl, rfl, fun h => h, fun h => h⟩

theorem Untouched.trans (h₁ : Untouched ledger x w w₁) (h₂ : Untouched ledger x w₁ w₂) :
    Untouched ledger x w w₂ :=
  ⟨h₁.toSpared.trans h₂.toSpared, h₂.outstanding.trans h₁.outstanding, h₂.held.trans h₁.held,
    fun h => h₂.named (h₁.named h), fun h => h₁.purged (h₂.purged h)⟩

theorem Untouched.after {c : RedisCmd} (h : Spared ledger x w.store.redis (c.run id w.store.redis).2)
    (hp : c.purges ≠ some x) : Untouched ledger x w (w.after c id) :=
  ⟨h, rfl, rfl, named_exec _ _ _ x, fun hx => (purged_exec hx).resolve_right hp⟩

theorem Uninvolved.refl : Uninvolved ledger x w w :=
  ⟨.refl, rfl⟩

theorem Uninvolved.trans (h₁ : Uninvolved ledger x w w₁) (h₂ : Uninvolved ledger x w₁ w₂) :
    Uninvolved ledger x w w₂ :=
  ⟨h₁.toUntouched.trans h₂.toUntouched, h₂.outcomes.trans h₁.outcomes⟩

theorem Uninvolved.after {c : RedisCmd} (h : Spared ledger x w.store.redis (c.run id w.store.redis).2)
    (hp : c.purges ≠ some x)
    (hc : ∀ record now, c = .webhookEnqueue record now → record.terminalOf ≠ some x) :
    Uninvolved ledger x w (w.after c id) := by
  refine ⟨.after h hp, ?_⟩
  rcases outcomes_exec w.store c id x with he | ⟨record, now, e, hr, -⟩
  · exact he
  · exact absurd hr (hc record now e)

theorem Only.refl : Only ledger m w w :=
  fun _ _ => .refl

theorem Only.trans (h₁ : Only ledger m w w₁) (h₂ : Only ledger m w₁ w₂) : Only ledger m w w₂ :=
  fun x hx => (h₁ x hx).trans (h₂ x hx)

theorem Only.of_all (h : ∀ x, Uninvolved ledger x w w₁) : Only ledger m w w₁ :=
  fun x _ => h x

theorem spared_setQueue {q : QueueKey} {s : SortedSet ℚ MessageId}
    (hs : x ∈ s ↔ x ∈ r.queues q) : Spared ledger x r (r.setQueue q s) := by
  refine ⟨rfl, fun p => ?_, fun _ h => h, fun _ h => h, fun _ h => h, fun _ _ h => h⟩
  rw [Redis.setQueue, mem_update]
  by_cases e : p = q
  · subst e
    simp [hs]
  · simp [e]

theorem spared_zrem (q : QueueKey) (hx : x ≠ m) : Spared ledger x r (r.zrem q m) :=
  spared_setQueue (by simp [hx])

theorem spared_lock (q : QueueKey) (ms : Nat) : Spared ledger x r (lockQueueForTimeMs q ms r).2 := by
  unfold lockQueueForTimeMs
  split <;>
    exact ⟨rfl, fun _ => Iff.rfl, fun _ h => h, fun _ h => h, fun _ h => h, fun _ _ h => h⟩

theorem spared_validateAndClean (k : AdmissionNode) (ids : List MessageId) :
    Spared ledger x r (validateAndClean k ids r) := by
  unfold validateAndClean
  induction ids generalizing r with
  | nil => exact .refl
  | cons i ids ih =>
    have hi : Spared ledger x r (r.sremRateLimit k i) :=
      ⟨rfl, fun _ => Iff.rfl, fun _ h => (mem_sremRateLimit.mp h).1, fun _ h => h, fun _ h => h,
        fun _ _ h => h⟩
    exact hi.trans ih

theorem spared_moveClaimed {a : MoveArgs} {score : ℚ} (hx : x ≠ a.messageId)
    (hi : ∀ y, a.indexKey = some y → ¬ Exclusive ledger y x) :
    Spared ledger x r (moveClaimed a score r) where
  hash := by simp [moveClaimed, hx]
  queues q := by simp [mem_moveClaimed, hx]
  rateLimits k h := by rwa [moveClaimed_rateLimits] at h
  externals y h := by
    rw [moveClaimed_externals] at h
    exact (h.resolve_left fun e => hx e.2).2
  correlations y h := by rwa [moveClaimed_correlations] at h
  index y hy h := moveClaimed_externals.mpr (.inr ⟨fun he => hi y he hy, h⟩)

theorem spared_move {a : MoveArgs} (hx : x ≠ a.messageId)
    (hi : ∀ y, a.indexKey = some y → ¬ Exclusive ledger y x) :
    Spared ledger x r (moveMessageBetweenQueues a r).2 := by
  rcases move_cases a r with ⟨-, he⟩ | ⟨-, -, he⟩ | ⟨-, -, he⟩ | ⟨-, h, score, -, -, he⟩ <;> rw [he]
  · exact .refl
  · exact spared_zrem _ hx
  · exact spared_zrem _ hx
  · exact (spared_zrem _ hx).trans (spared_moveClaimed hx hi)

theorem spared_popSource {a : FetchArgs} {rest : SortedSet ℚ MessageId}
    (hp : (r.queues a.sourceQueue).popMin = some (m, rest)) (hx : x ≠ m) :
    Spared ledger x r (popSource a rest r) where
  hash := congrFun popSource_messages x
  queues q := by simp [mem_popSource hp, hx]
  rateLimits k h := popSource_indexes.rateLimits ▸ h
  externals y h := popSource_indexes.externals ▸ h
  correlations y h := popSource_indexes.correlations ▸ h
  index y _ h := (congrFun popSource_indexes.externals y).trans h

theorem spared_pickClaimed {a : FetchArgs} {t : ℚ} {h : MessageHash}
    (hh : r.messages m = some h) (hx : x ≠ m) : Spared ledger x r (pickClaimed a t m r) where
  hash := by rw [pickClaimed_messages hh, Function.update_of_ne hx]
  queues q := by simp [mem_pickClaimed, hx]
  rateLimits k h := (mem_pickClaimed_rateLimits.mp h).resolve_left fun e => hx e.1
  externals y h := pickClaimed_externals ▸ h
  correlations y h := pickClaimed_correlations ▸ h
  index y _ h := (congrFun pickClaimed_externals y).trans h

theorem spared_enterRetry {a : EnterRetryMulti} (hx : x ≠ a.messageId)
    (hi : ∀ y, a.staleDeliveryQueueId = some y → ¬ Exclusive ledger y x) :
    Spared ledger x r (enterRetryMulti a r).2 where
  hash := by rw [enterRetry_messages, Function.update_of_ne hx]
  queues q := by simp [mem_enterRetry_queues, hx]
  rateLimits k h := (mem_enterRetry_rateLimits.mp h).1
  externals y h := (enterRetry_externals.mp h).2
  correlations y h := enterRetry_correlations ▸ h
  index y hy h := enterRetry_externals.mpr ⟨fun he => hi y he hy, h⟩

theorem spared_cleanup {m : DeviceMessage} {qs : List QueueKey} (hx : x ≠ m.id)
    (hi : ∀ y, truthy (some m.deliveryQueueId) = some y → ¬ Exclusive ledger y x) :
    Spared ledger x r (messageFullCleanup m qs r) where
  hash := by rw [cleanup_messages, Function.update_of_ne hx]
  queues q := by simp [mem_cleanup, hx]
  rateLimits k h := (mem_cleanup_rateLimits.mp h).1
  externals y h := (cleanup_externals.mp h).2
  correlations y h := (cleanup_correlations.mp h).2
  index y hy h := cleanup_externals.mpr ⟨fun he => hi y he hy, h⟩

theorem spared_enqueue {dto : CreateDeviceMessage} {q : QueueKey} (hx : x ≠ id) :
    Spared ledger x r (enqueueMulti id dto q r) where
  hash := by rw [enqueue_messages, Function.update_of_ne hx]
  queues p := by simp [mem_enqueue, hx]
  rateLimits k h := enqueue_rateLimits ▸ h
  externals y h := enqueue_externals ▸ h
  correlations y h := (enqueue_correlations.mp h).resolve_left (fun e => hx e.2) |>.2
  index y _ h := (congrFun enqueue_externals y).trans h

end DeviceMessaging
