import DeviceMessaging.RedisScripts

namespace DeviceMessaging

variable {r : Redis} {id x : MessageId} {k : AdmissionNode}

/-- The references that lead to a message from outside the queues. -/
structure Redis.SameIndexes (r r' : Redis) : Prop where
  rateLimits : r'.rateLimits = r.rateLimits
  correlations : r'.correlations = r.correlations
  externals : r'.externals = r.externals

theorem mem_saddRateLimit {l : AdmissionNode} :
    x ∈ (r.saddRateLimit l id).rateLimits k ↔ (x = id ∧ k = l) ∨ x ∈ r.rateLimits k := by
  by_cases h : k = l
  · subst h; simp
  · simp [h]

theorem mem_sremRateLimit {l : AdmissionNode} :
    x ∈ (r.sremRateLimit l id).rateLimits k ↔ x ∈ r.rateLimits k ∧ (x = id → k ≠ l) := by
  by_cases h : k = l
  · subst h; simp
  · simp [h]

theorem mem_sremSlot {l : Option AdmissionNode} :
    x ∈ (sremSlot r l id).rateLimits k ↔ x ∈ r.rateLimits k ∧ (x = id → l ≠ some k) := by
  cases l with
  | none => simp [sremSlot]
  | some l =>
    unfold sremSlot
    rw [mem_sremRateLimit]
    simp [eq_comm]

theorem mem_releaseConcurrencySlot {l : Option AdmissionNode} :
    x ∈ (releaseConcurrencySlot r l id).rateLimits k ↔
      x ∈ r.rateLimits k ∧ (x = id → l ≠ some k) := by
  cases l with
  | none => simp [releaseConcurrencySlot]
  | some l =>
    have h : (releaseConcurrencySlot r (some l) id).rateLimits =
        (r.sremRateLimit l id).rateLimits := rfl
    rw [h, mem_sremRateLimit]
    simp [eq_comm]

theorem mem_claimConcurrencySlot {l : Option AdmissionNode} :
    x ∈ (claimConcurrencySlot r l id).rateLimits k ↔
      (x = id ∧ l = some k) ∨ x ∈ r.rateLimits k := by
  cases l with
  | none => simp [claimConcurrencySlot]
  | some l =>
    have h : (claimConcurrencySlot r (some l) id).rateLimits =
        (r.saddRateLimit l id).rateLimits := rfl
    rw [h, mem_saddRateLimit]
    simp [eq_comm]

theorem mem_validateAndClean {l : AdmissionNode} {ids : List MessageId} :
    x ∈ (validateAndClean l ids r).rateLimits k ↔ x ∈ r.rateLimits k ∧ (x ∈ ids → k ≠ l) := by
  unfold validateAndClean
  induction ids generalizing r with
  | nil => simp
  | cons i ids ih =>
    rw [List.foldl_cons, ih, mem_sremRateLimit]
    grind

theorem validateAndClean_correlations {l : AdmissionNode} {ids : List MessageId} :
    (validateAndClean l ids r).correlations = r.correlations := by
  unfold validateAndClean
  induction ids generalizing r with
  | nil => rfl
  | cons i ids ih => exact ih

theorem setIndex_externals {y : Option String} {z : String} :
    (setIndex r y id).externals z = some x ↔
      (y = some z ∧ x = id) ∨ (y ≠ some z ∧ r.externals z = some x) := by
  cases y with
  | none => simp [setIndex]
  | some y =>
    unfold setIndex
    by_cases h : z = y
    · subst h; simp [eq_comm]
    · have h' : y ≠ z := fun e => h e.symm
      simp [h, h']

theorem delStaleIndex_externals {y : Option String} {z : String} :
    (delStaleIndex r y).externals z = some x ↔ y ≠ some z ∧ r.externals z = some x := by
  cases y with
  | none => simp [delStaleIndex]
  | some y =>
    unfold delStaleIndex
    by_cases h : z = y
    · subst h; simp
    · have h' : y ≠ z := fun e => h e.symm
      simp [h, h']

theorem delCorrelationIndex_correlations {c : Option String} {p : Option Phase} {z : String} :
    (delCorrelationIndex r c p).correlations z = some x ↔
      (∀ c', c = some c' → z ≠ indexCorrelationId c' p) ∧ r.correlations z = some x := by
  cases c with
  | none => simp [delCorrelationIndex]
  | some c =>
    unfold delCorrelationIndex
    by_cases h : z = indexCorrelationId c p
    · simp [h]
    · simp [h]

theorem zremAll_indexes {qs : List QueueKey} : r.SameIndexes (zremAll r qs id) := by
  unfold zremAll
  induction qs generalizing r with
  | nil => exact ⟨rfl, rfl, rfl⟩
  | cons q qs ih =>
    obtain ⟨h₁, h₂, h₃⟩ := ih (r := r.zrem q id)
    exact ⟨h₁, h₂, h₃⟩

theorem popSource_indexes {a : FetchArgs} {rest : SortedSet ℚ MessageId} :
    r.SameIndexes (popSource a rest r) := by
  unfold popSource sremIfEmpty
  split <;> exact ⟨rfl, rfl, rfl⟩

theorem moveClaimed_externals {a : MoveArgs} {score : ℚ} {z : String} :
    (moveClaimed a score r).externals z = some x ↔
      (a.indexKey = some z ∧ x = a.messageId) ∨ (a.indexKey ≠ some z ∧ r.externals z = some x) :=
  setIndex_externals

theorem moveClaimed_rateLimits {a : MoveArgs} {score : ℚ} :
    (moveClaimed a score r).rateLimits = r.rateLimits := by
  unfold moveClaimed setIndex
  cases a.indexKey <;> rfl

theorem moveClaimed_correlations {a : MoveArgs} {score : ℚ} :
    (moveClaimed a score r).correlations = r.correlations := by
  unfold moveClaimed setIndex
  cases a.indexKey <;> rfl

theorem mem_pickClaimed_rateLimits {a : FetchArgs} {t : ℚ} :
    x ∈ (pickClaimed a t id r).rateLimits k ↔
      (x = id ∧ a.concurrencyRateLimitKey = some k) ∨ x ∈ r.rateLimits k :=
  mem_claimConcurrencySlot

theorem pickClaimed_externals {a : FetchArgs} {t : ℚ} :
    (pickClaimed a t id r).externals = r.externals := by
  unfold pickClaimed claimConcurrencySlot
  cases a.concurrencyRateLimitKey <;> rfl

theorem pickClaimed_correlations {a : FetchArgs} {t : ℚ} :
    (pickClaimed a t id r).correlations = r.correlations := by
  unfold pickClaimed claimConcurrencySlot
  cases a.concurrencyRateLimitKey <;> rfl

theorem mem_enterRetry_rateLimits {a : EnterRetryMulti} :
    x ∈ (enterRetryMulti a r).2.rateLimits k ↔
      x ∈ r.rateLimits k ∧ (x = a.messageId → a.concurrencyRateLimitKey ≠ some k) := by
  unfold enterRetryMulti
  cases a.dueAt <;> cases hs : a.staleDeliveryQueueId <;>
    exact mem_releaseConcurrencySlot

theorem enterRetry_externals {a : EnterRetryMulti} {z : String} :
    (enterRetryMulti a r).2.externals z = some x ↔
      a.staleDeliveryQueueId ≠ some z ∧ r.externals z = some x := by
  unfold enterRetryMulti
  cases a.dueAt <;> cases a.concurrencyRateLimitKey <;> exact delStaleIndex_externals

theorem enterRetry_correlations {a : EnterRetryMulti} :
    (enterRetryMulti a r).2.correlations = r.correlations := by
  unfold enterRetryMulti
  cases a.dueAt <;> cases a.concurrencyRateLimitKey <;> cases a.staleDeliveryQueueId <;> rfl

theorem enqueue_rateLimits {dto : CreateDeviceMessage} {q : QueueKey} :
    (enqueueMulti id dto q r).rateLimits = r.rateLimits := by
  unfold enqueueMulti
  cases dto.correlationId <;> rfl

theorem enqueue_externals {dto : CreateDeviceMessage} {q : QueueKey} :
    (enqueueMulti id dto q r).externals = r.externals := by
  unfold enqueueMulti
  cases dto.correlationId <;> rfl

/-- The key a message's correlation id is indexed under. -/
def correlationKey (c : Option String) (p : Option Phase) : Option String :=
  c.map fun c => indexCorrelationId c p

theorem enqueue_correlations {dto : CreateDeviceMessage} {q : QueueKey} {z : String} :
    (enqueueMulti id dto q r).correlations z = some x ↔
      (correlationKey dto.correlationId dto.phase = some z ∧ x = id) ∨
      (correlationKey dto.correlationId dto.phase ≠ some z ∧ r.correlations z = some x) := by
  unfold enqueueMulti correlationKey
  cases dto.correlationId with
  | none => simp
  | some c =>
    by_cases h : z = indexCorrelationId c dto.phase
    · subst h; simp [eq_comm]
    · have h' : indexCorrelationId c dto.phase ≠ z := fun e => h e.symm
      simp [h, h']

theorem mem_cleanup_rateLimits {m : DeviceMessage} {qs : List QueueKey} :
    x ∈ (messageFullCleanup m qs r).rateLimits k ↔
      x ∈ r.rateLimits k ∧ (x = m.id → m.concurrencyRateLimitKey ≠ some k) := by
  have h : (messageFullCleanup m qs r).rateLimits =
      (sremSlot (zremAll (r.delMessage m.id) qs m.id) m.concurrencyRateLimitKey m.id).rateLimits := by
    unfold messageFullCleanup delStaleIndex delCorrelationIndex
    cases truthy (some m.deliveryQueueId) <;> cases m.correlationId <;> rfl
  rw [h, mem_sremSlot, zremAll_indexes.rateLimits]
  rfl

theorem cleanup_externals {m : DeviceMessage} {qs : List QueueKey} {z : String} :
    (messageFullCleanup m qs r).externals z = some x ↔
      truthy (some m.deliveryQueueId) ≠ some z ∧ r.externals z = some x := by
  unfold messageFullCleanup
  rw [delStaleIndex_externals]
  have h : (delCorrelationIndex (sremSlot (zremAll (r.delMessage m.id) qs m.id)
      m.concurrencyRateLimitKey m.id) m.correlationId m.phase).externals = r.externals := by
    unfold delCorrelationIndex sremSlot
    cases m.correlationId <;> cases m.concurrencyRateLimitKey <;> exact zremAll_indexes.externals
  rw [h]

theorem cleanup_correlations {m : DeviceMessage} {qs : List QueueKey} {z : String} :
    (messageFullCleanup m qs r).correlations z = some x ↔
      correlationKey m.correlationId m.phase ≠ some z ∧ r.correlations z = some x := by
  have h : (messageFullCleanup m qs r).correlations =
      (delCorrelationIndex (sremSlot (zremAll (r.delMessage m.id) qs m.id)
        m.concurrencyRateLimitKey m.id) m.correlationId m.phase).correlations := by
    unfold messageFullCleanup delStaleIndex
    cases truthy (some m.deliveryQueueId) <;> rfl
  have h' : (sremSlot (zremAll (r.delMessage m.id) qs m.id)
      m.concurrencyRateLimitKey m.id).correlations = r.correlations := by
    unfold sremSlot
    cases m.concurrencyRateLimitKey <;> exact zremAll_indexes.correlations
  rw [h, delCorrelationIndex_correlations, h']
  unfold correlationKey
  cases m.correlationId with
  | none => simp
  | some c => simp [eq_comm]

end DeviceMessaging
