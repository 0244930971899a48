import DeviceMessaging.RedisMessages
import DeviceMessaging.RedisQueues

namespace DeviceMessaging

variable {r r₁ r₂ : Redis} {id x : MessageId} {q p : QueueKey}

/-- All but one message keep their hash and, in every queue, their score. -/
structure Redis.SameBeside (id : MessageId) (r r' : Redis) : Prop where
  hash : ∀ x, x ≠ id → r'.messages x = r.messages x
  score : ∀ x q, x ≠ id → (r'.queues q).score x = (r.queues q).score x

theorem Redis.SameBeside.refl : Redis.SameBeside id r r where
  hash _ _ := rfl
  score _ _ _ := rfl

theorem Redis.SameBeside.trans (h₁ : Redis.SameBeside id r r₁) (h₂ : Redis.SameBeside id r₁ r₂) :
    Redis.SameBeside id r r₂ where
  hash x hx := (h₂.hash x hx).trans (h₁.hash x hx)
  score x q hx := (h₂.score x q hx).trans (h₁.score x q hx)

theorem score_congr {s t : SortedSet ℚ MessageId}
    (h : ∀ k, (k, x) ∈ s.entries ↔ (k, x) ∈ t.entries) : s.score x = t.score x := by
  refine Option.ext fun k => ?_
  rw [SortedSet.score_eq_some, SortedSet.score_eq_some]
  exact h k

theorem score_update {s : SortedSet ℚ MessageId} (h : s.score x = (r.queues p).score x) :
    (Function.update r.queues p s q).score x = (r.queues q).score x := by
  by_cases hq : q = p
  · subst hq
    rw [Function.update_self, h]
  · rw [Function.update_of_ne hq]

theorem score_zrem (hx : x ≠ id) : ((r.zrem p id).queues q).score x = (r.queues q).score x := by
  refine score_update (score_congr fun k => ?_)
  rw [SortedSet.mem_remove_entries]
  exact and_iff_left hx

theorem score_insert {s : SortedSet ℚ MessageId} {k : ℚ} (hx : x ≠ id) :
    (s.insert id k).score x = s.score x := by
  refine score_congr fun l => ?_
  rw [SortedSet.mem_insert_entries]
  refine ⟨fun h => ?_, fun h => .inr ⟨h, hx⟩⟩
  rcases h with h | h
  · exact absurd (congrArg Prod.snd h) hx
  · exact h.1

theorem score_zadd {k : ℚ} (hx : x ≠ id) :
    ((r.zadd p k id).queues q).score x = (r.queues q).score x :=
  score_update (score_insert hx)

theorem score_zremAll {ps : List QueueKey} (hx : x ≠ id) :
    ((zremAll r ps id).queues q).score x = (r.queues q).score x := by
  unfold zremAll
  induction ps generalizing r with
  | nil => rfl
  | cons p ps ih => exact (ih (r := r.zrem p id)).trans (score_zrem hx)

theorem beside_zrem (q : QueueKey) (id : MessageId) (r : Redis) :
    Redis.SameBeside id r (r.zrem q id) where
  hash _ _ := rfl
  score _ _ hx := score_zrem hx

theorem beside_cleanup (m : DeviceMessage) (qs : List QueueKey) (r : Redis) :
    Redis.SameBeside m.id r (messageFullCleanup m qs r) where
  hash x hx := by
    rw [cleanup_messages]
    exact Function.update_of_ne hx ..
  score x q hx := by
    unfold messageFullCleanup
    rw [delStaleIndex_queues, delCorrelationIndex_queues, sremSlot_queues]
    exact score_zremAll hx

theorem beside_enterRetry (a : EnterRetryMulti) (r : Redis) :
    Redis.SameBeside a.messageId r (enterRetryMulti a r).2 where
  hash x hx := by
    rw [enterRetry_messages]
    exact Function.update_of_ne hx ..
  score x q hx := by
    unfold enterRetryMulti
    cases a.dueAt with
    | none =>
      simp only [releaseConcurrencySlot_queues, delStaleIndex_queues]
      exact score_zrem hx
    | some dueAt =>
      simp only [releaseConcurrencySlot_queues, delStaleIndex_queues]
      exact (score_zadd hx).trans (score_zrem hx)

theorem beside_move (a : MoveArgs) (r : Redis) :
    Redis.SameBeside a.messageId r (moveMessageBetweenQueues a r).2 where
  hash x hx := by
    rcases move_messages a r with he | ⟨h, -, -, he⟩ <;> rw [he]
    exact Function.update_of_ne hx ..
  score x q hx := by
    rcases move_cases a r with ⟨-, he⟩ | ⟨-, -, he⟩ | ⟨-, -, he⟩ | ⟨-, h, k, -, -, he⟩ <;> rw [he]
    · exact score_zrem hx
    · exact score_zrem hx
    · unfold moveClaimed
      rw [setIndex_queues]
      exact (score_zadd hx).trans (score_zrem hx)

end DeviceMessaging
