import DeviceMessaging.RedisScripts

namespace DeviceMessaging

variable {r : Redis} {id x : MessageId} {q : QueueKey}

theorem mem_update {s : SortedSet ℚ MessageId} {p : QueueKey} :
    x ∈ Function.update r.queues p s q ↔ (q = p ∧ x ∈ s) ∨ (q ≠ p ∧ x ∈ r.queues q) := by
  by_cases h : q = p
  · subst h; simp
  · simp [h]

@[simp] theorem setIndex_queues (k : Option String) : (setIndex r k id).queues = r.queues := by
  cases k <;> rfl

@[simp] theorem delStaleIndex_queues (k : Option String) :
    (delStaleIndex r k).queues = r.queues := by
  cases k <;> rfl

@[simp] theorem delCorrelationIndex_queues (c : Option String) (phase : Option Phase) :
    (delCorrelationIndex r c phase).queues = r.queues := by
  cases c <;> rfl

@[simp] theorem sremSlot_queues (k : Option AdmissionNode) :
    (sremSlot r k id).queues = r.queues := by
  cases k <;> rfl

@[simp] theorem releaseConcurrencySlot_queues (k : Option AdmissionNode) :
    (releaseConcurrencySlot r k id).queues = r.queues := by
  cases k <;> rfl

@[simp] theorem claimConcurrencySlot_queues (k : Option AdmissionNode) :
    (claimConcurrencySlot r k id).queues = r.queues := by
  cases k <;> rfl

@[simp] theorem sremIfEmpty_queues : (sremIfEmpty r q).queues = r.queues := by
  unfold sremIfEmpty
  split <;> rfl

@[simp] theorem validateAndClean_queues (k : AdmissionNode) (ids : List MessageId) :
    (validateAndClean k ids r).queues = r.queues := by
  unfold validateAndClean
  induction ids generalizing r with
  | nil => rfl
  | cons i ids ih => exact ih

theorem mem_zrem {p : QueueKey} :
    x ∈ (r.zrem p id).queues q ↔ x ∈ r.queues q ∧ (x = id → q ≠ p) := by
  simp only [Redis.zrem, mem_update, SortedSet.mem_remove]
  grind

theorem mem_zadd {p : QueueKey} {score : ℚ} :
    x ∈ (r.zadd p score id).queues q ↔ x ∈ r.queues q ∨ (x = id ∧ q = p) := by
  simp only [Redis.zadd, mem_update, SortedSet.mem_insert]
  grind

theorem mem_zremAll {ps : List QueueKey} :
    x ∈ (zremAll r ps id).queues q ↔ x ∈ r.queues q ∧ (x = id → q ∉ ps) := by
  unfold zremAll
  induction ps generalizing r with
  | nil => simp
  | cons p ps ih =>
    rw [List.foldl_cons, ih, mem_zrem]
    grind

theorem mem_moveClaimed {a : MoveArgs} {score : ℚ} :
    x ∈ (moveClaimed a score r).queues q ↔
      x ∈ r.queues q ∨ (x = a.messageId ∧ q = a.destinationQueue) := by
  unfold moveClaimed
  rw [setIndex_queues]
  exact mem_zadd

/-- A move takes the message from its source, and only from there. -/
theorem mem_move {a : MoveArgs} (h : x ∈ (moveMessageBetweenQueues a r).2.queues q) :
    (x ∈ r.queues q ∧ (x = a.messageId → q ≠ a.sourceQueue)) ∨
      (x = a.messageId ∧ q = a.destinationQueue ∧ x ∈ r.queues a.sourceQueue) := by
  rcases move_cases a r with ⟨hm, he⟩ | ⟨hm, -, he⟩ | ⟨hm, -, he⟩ | ⟨hm, g, score, -, -, he⟩ <;>
    rw [he] at h
  · refine .inl ⟨h, ?_⟩
    rintro rfl rfl
    exact hm h
  · exact .inl (mem_zrem.mp h)
  · exact .inl (mem_zrem.mp h)
  · rcases mem_moveClaimed.mp h with h | ⟨rfl, rfl⟩
    · exact .inl (mem_zrem.mp h)
    · exact .inr ⟨rfl, rfl, hm⟩

theorem mem_popSource {a : FetchArgs} {rest : SortedSet ℚ MessageId}
    (hp : (r.queues a.sourceQueue).popMin = some (id, rest)) :
    x ∈ (popSource a rest r).queues q ↔ x ∈ r.queues q ∧ (x = id → q ≠ a.sourceQueue) := by
  unfold popSource
  rw [sremIfEmpty_queues, Redis.setQueue, mem_update, SortedSet.mem_popMin_rest hp]
  grind

theorem mem_pickClaimed {a : FetchArgs} {timeoutAt : ℚ} :
    x ∈ (pickClaimed a timeoutAt id r).queues q ↔
      x ∈ r.queues q ∨ (x = id ∧ q = a.destinationQueue) := by
  unfold pickClaimed
  rw [claimConcurrencySlot_queues]
  exact mem_zadd

/-- A pick takes one message from its source, and only from there. -/
theorem mem_fetch (a : FetchArgs) (r : Redis) :
    (fetchNextMessageInQueueAndMove a r).2.queues = r.queues ∨
      ∃ id, id ∈ r.queues a.sourceQueue ∧
        ∀ x q, x ∈ (fetchNextMessageInQueueAndMove a r).2.queues q →
          (x ∈ r.queues q ∧ (x = id → q ≠ a.sourceQueue)) ∨
            (x = id ∧ q = a.destinationQueue) := by
  rcases fetch_cases a r with he | he | ⟨id, rest, hp, h⟩
  · exact .inl (by rw [he])
  · exact .inl (by rw [he]; rfl)
  · refine .inr ⟨id, (SortedSet.mem_popMin hp).mpr (.inl rfl), fun x q hx => ?_⟩
    rcases h with ⟨-, he⟩ | ⟨-, he⟩ | ⟨g, t, -, -, he⟩ <;> rw [he] at hx
    · exact .inl ((mem_popSource hp).mp hx)
    · exact .inl ((mem_popSource hp).mp hx)
    · rcases mem_pickClaimed.mp hx with hx | hx
      · exact .inl ((mem_popSource hp).mp hx)
      · exact .inr hx

theorem mem_enterRetry_queues {a : EnterRetryMulti} :
    x ∈ (enterRetryMulti a r).2.queues q ↔
      (x ∈ r.queues q ∧ (x = a.messageId → q ≠ a.fromKey)) ∨
        (x = a.messageId ∧ q = .retry ∧ a.dueAt ≠ none) := by
  unfold enterRetryMulti
  cases a.dueAt with
  | none =>
    simp only [releaseConcurrencySlot_queues, delStaleIndex_queues]
    exact mem_zrem.trans (by simp)
  | some dueAt =>
    simp only [releaseConcurrencySlot_queues, delStaleIndex_queues]
    exact mem_zadd.trans (or_congr mem_zrem (by simp))

theorem mem_enterRetry {a : EnterRetryMulti} (h : x ∈ (enterRetryMulti a r).2.queues q) :
    (x ∈ r.queues q ∧ (x = a.messageId → q ≠ a.fromKey)) ∨ (x = a.messageId ∧ q = .retry) :=
  (mem_enterRetry_queues.mp h).imp_right fun h => ⟨h.1, h.2.1⟩

theorem mem_enqueue {dto : CreateDeviceMessage} {p : QueueKey} :
    x ∈ (enqueueMulti id dto p r).queues q ↔ x ∈ r.queues q ∨ (x = id ∧ q = p) := by
  unfold enqueueMulti
  cases dto.correlationId <;> exact mem_zadd

theorem mem_cleanup {m : DeviceMessage} {ps : List QueueKey} :
    x ∈ (messageFullCleanup m ps r).queues q ↔ x ∈ r.queues q ∧ (x = m.id → q ∉ ps) := by
  unfold messageFullCleanup
  rw [delStaleIndex_queues, delCorrelationIndex_queues, sremSlot_queues]
  exact mem_zremAll

end DeviceMessaging
