import Mathlib.Tactic.Linarith
import DeviceMessaging.JsNumbers
import DeviceMessaging.LiveIndex
import DeviceMessaging.PlainPrograms

namespace DeviceMessaging

open Effect

/-- A requeue that commits is of a message whose priority reads back. -/
def RequeuesReadBack (c : RedisCmd) (s : Store) : Prop :=
  match c with
  | .moveMessageBetweenQueues a => a.sourceQueue = .retry → a.messageId ∈ s.redis.queues .retry →
      s.redis.messages a.messageId ≠ none →
      ∀ dto, (a.messageId, dto) ∈ s.enqueued → dto.priority.ReadsBack
  | _ => True

/-- Every member of a ready queue is scored by the priority of its request. -/
def ReadyScores (s : Store) : Prop :=
  ∀ node k id, (k, id) ∈ (s.redis.queues (.ready node)).entries →
    ∃ dto, (id, dto) ∈ s.enqueued ∧ k = -1 * dto.priority.value

variable {r : Redis} {id : MessageId} {q : QueueKey} {e : ℚ × MessageId} {s : Store} {c : RedisCmd}
  {i : MessageId} {svc : Service}

theorem entries_zadd {p : QueueKey} {k : ℚ} (h : e ∈ ((r.zadd p k id).queues q).entries) :
    e ∈ (r.queues q).entries ∨ (q = p ∧ e = (k, id)) := by
  by_cases hq : q = p
  · subst hq
    simp only [Redis.zadd, Function.update_self, SortedSet.mem_insert_entries] at h
    exact h.elim (fun h => .inr ⟨rfl, h⟩) fun h => .inl h.1
  · simp only [Redis.zadd, Function.update_of_ne hq] at h
    exact .inl h

theorem entries_zrem {p : QueueKey} (h : e ∈ ((r.zrem p id).queues q).entries) :
    e ∈ (r.queues q).entries := by
  by_cases hq : q = p
  · subst hq
    simp only [Redis.zrem, Function.update_self, SortedSet.mem_remove_entries] at h
    exact h.1
  · simp only [Redis.zrem, Function.update_of_ne hq] at h
    exact h

theorem entries_zremAll {ps : List QueueKey} (h : e ∈ ((zremAll r ps id).queues q).entries) :
    e ∈ (r.queues q).entries := by
  unfold zremAll at h
  induction ps generalizing r with
  | nil => exact h
  | cons p ps ih => exact entries_zrem (ih h)

/-- A move adds one entry, with the score it is given. -/
theorem entries_move {a : MoveArgs}
    (h : e ∈ ((moveMessageBetweenQueues a r).2.queues q).entries) :
    e ∈ (r.queues q).entries ∨
      (q = a.destinationQueue ∧ e.2 = a.messageId ∧ a.destinationScore = some e.1 ∧
        a.messageId ∈ r.queues a.sourceQueue ∧ r.messages a.messageId ≠ none) := by
  rcases move_cases a r with ⟨-, he⟩ | ⟨-, -, he⟩ | ⟨-, -, he⟩ | ⟨hm, g, k, hg, hk, he⟩ <;>
    rw [he] at h
  · exact .inl h
  · exact .inl (entries_zrem h)
  · exact .inl (entries_zrem h)
  · simp only [moveClaimed, setIndex_queues] at h
    rcases entries_zadd h with h | ⟨hq, rfl⟩
    · exact .inl (entries_zrem h)
    · exact .inr ⟨hq, rfl, hk, hm, by simp [hg]⟩

theorem entries_popSource {a : FetchArgs} {rest : SortedSet ℚ MessageId}
    (hp : (r.queues a.sourceQueue).popMin = some (id, rest))
    (h : e ∈ ((popSource a rest r).queues q).entries) : e ∈ (r.queues q).entries := by
  unfold popSource at h
  rw [sremIfEmpty_queues] at h
  by_cases hq : q = a.sourceQueue
  · subst hq
    simp only [Redis.setQueue, Function.update_self] at h
    obtain ⟨⟨k, hk⟩, -⟩ := SortedSet.popMin_entries hp
    rw [hk]
    exact List.mem_cons_of_mem _ h
  · simp only [Redis.setQueue, Function.update_of_ne hq] at h
    exact h

/-- A pick adds an entry to its destination only. -/
theorem entries_fetch {a : FetchArgs}
    (h : e ∈ ((fetchNextMessageInQueueAndMove a r).2.queues q).entries)
    (hq : q ≠ a.destinationQueue) : e ∈ (r.queues q).entries := by
  rcases fetch_cases a r with he | he | ⟨m, rest, hp, ⟨-, he⟩ | ⟨-, he⟩ | ⟨g, t, -, -, he⟩⟩ <;>
    rw [he] at h
  · exact h
  · exact h
  · exact entries_popSource hp h
  · exact entries_popSource hp h
  · simp only [pickClaimed, claimConcurrencySlot_queues] at h
    rcases entries_zadd h with h | ⟨e, -⟩
    · exact entries_popSource hp h
    · exact absurd e hq

theorem entries_enterRetry {a : EnterRetryMulti} (h : e ∈ ((enterRetryMulti a r).2.queues q).entries)
    (hq : q ≠ .retry) : e ∈ (r.queues q).entries := by
  unfold enterRetryMulti at h
  cases hd : a.dueAt with
  | none =>
    simp only [hd, releaseConcurrencySlot_queues, delStaleIndex_queues] at h
    exact entries_zrem h
  | some dueAt =>
    simp only [hd, releaseConcurrencySlot_queues, delStaleIndex_queues] at h
    rcases entries_zadd h with h | ⟨e, -⟩
    · exact entries_zrem h
    · exact absurd e hq

theorem entries_enqueue {dto : CreateDeviceMessage} {p : QueueKey}
    (h : e ∈ ((enqueueMulti id dto p r).queues q).entries) :
    e ∈ (r.queues q).entries ∨ e = (-1 * dto.priority.value, id) := by
  unfold enqueueMulti at h
  cases hc : dto.correlationId <;> rw [hc] at h <;>
    exact (entries_zadd h).imp_right And.right

theorem entries_cleanup {m : DeviceMessage} {ps : List QueueKey}
    (h : e ∈ ((messageFullCleanup m ps r).queues q).entries) : e ∈ (r.queues q).entries := by
  unfold messageFullCleanup at h
  rw [delStaleIndex_queues, delCorrelationIndex_queues, sremSlot_queues] at h
  exact entries_zremAll (r := r.delMessage m.id) h

theorem entries_rescore {p : QueueKey} {k : ℚ} {x : MessageId} (hq : q ≠ p)
    (h : e ∈ ((r.setQueue p ((r.queues p).rescore x k)).queues q).entries) :
    e ∈ (r.queues q).entries := by
  simpa only [Redis.setQueue, Function.update_of_ne hq] using h

theorem readyScores_empty : ReadyScores .empty :=
  fun _ _ _ h => nomatch h

theorem readyScores_exec (hs : ReadyScores s)
    (hc : Cmd.Proper svc s.enqueued (.redis c)) (hp : RequeuesReadBack c s) :
    ReadyScores (s.exec c i).2 := by
  intro node k id h
  have hkeep : (k, id) ∈ (s.redis.queues (.ready node)).entries →
      ∃ dto, (id, dto) ∈ (s.exec c i).2.enqueued ∧ k = -1 * dto.priority.value := by
    intro h
    obtain ⟨dto, hdto, hk⟩ := hs node k id h
    exact ⟨dto, enqueued_exec s c i _ hdto, hk⟩
  cases c with
  | enqueueDeviceMessage dto q =>
    rcases entries_enqueue h with h | h
    · exact hkeep h
    · cases h
      exact ⟨dto, by simp [Store.exec, Store.note], rfl⟩
  | moveMessageBetweenQueues a =>
    rcases entries_move h with h | ⟨hq, rfl, hk, hm, hg⟩
    · exact hkeep h
    · rcases hc with ⟨plugin, fromStage, next, -, -, -, hdest, -⟩ | ⟨dto, hdto, hsrc, -, -, hscore⟩
      · exact absurd (hdest.symm.trans hq.symm) (stageKeyFor_ne_ready _ _ _)
      · refine ⟨dto, hdto, ?_⟩
        have hread := hp hsrc (hsrc ▸ hm) hg dto hdto
        have hk : k = -1 * (dto.priority.parseInt : ℚ) := Option.some.inj (hk.symm.trans hscore)
        rw [hk, hread]
  | fetchNextMessageInQueueAndMove a =>
    obtain ⟨_, _, -, -, hdest, -⟩ := hc
    exact hkeep (entries_fetch h (by simp [hdest]))
  | enterRetry a => exact hkeep (entries_enterRetry h (by simp))
  | removeMessageFromQueue q x => exact hkeep (entries_zrem h)
  | messageFullCleanup m qs => exact hkeep (entries_cleanup h)
  | zaddXx q score x =>
    obtain ⟨stage, pluginId, rfl⟩ := hc
    cases score with
    | none => exact hkeep h
    | some score => exact hkeep (entries_rescore (stageKeyFor_ne_ready _ _ _).symm h)
  | lockQueueForTimeMs q ms =>
    simp only [Store.exec, RedisCmd.run, lockQueueForTimeMs] at h
    split at h <;> exact hkeep h
  | sremRateLimit key ids =>
    simp only [Store.exec, RedisCmd.run, validateAndClean_queues] at h
    exact hkeep h
  | _ => exact hkeep h

theorem reached_readyScores {weather : Weather} {x : Process}
    (hx : Reached svc weather (OnCommand RequeuesReadBack) x) : ReadyScores x.world.store := by
  refine proper_invariant readyScores_empty (fun s c i hs _ hc hp _ =>
    readyScores_exec hs hc hp) (fun s d _ hs => ?_) hx
  cases d <;> exact hs

/-- Nothing scores below the member. -/
def Foremost (q : SortedSet ℚ MessageId) (id : MessageId) : Prop :=
  ∃ k, (k, id) ∈ q.entries ∧ ∀ l y, (l, y) ∈ q.entries → k ≤ l

theorem fetch_reply_foremost {a : FetchArgs} {h : MessageHash}
    (hv : (fetchNextMessageInQueueAndMove a r).1 = .ok (some (id, h))) :
    Foremost (r.queues a.sourceQueue) id := by
  rcases fetch_cases a r with he | he | ⟨m, rest, hp, ⟨-, he⟩ | ⟨-, he⟩ | ⟨g, t, -, -, he⟩⟩ <;>
    rw [he] at hv
  · cases hv
  · cases hv
  · cases hv
  · cases hv
  · simp only [Except.ok.injEq] at hv
    obtain ⟨h', -, he⟩ := Option.map_eq_some_iff.mp hv
    cases he
    exact SortedSet.popMin_least hp

/-- A pick that returns a message returns a foremost one. -/
theorem pickIntoNs_foremost {w : World} {polls : PollRule} (node : AdmissionNode)
    (plugin : DeliveryPlugin) (limit : Option ConcurrencyRateLimit) :
    (pickIntoNs svc (.ready node) plugin limit).wp (calm polls)
      (fun picked _ => ∀ m, picked = some m → Foremost (w.store.redis.queues (.ready node)) m.id)
      (fun _ _ => True) w := by
  unfold pickIntoNs
  rw [Prog.wp_bind, wp_dateNow]
  intro now
  simp only [stages, Prog.wp_bind, Prog.wp_pure]
  rw [wp_redis_plain rfl]
  generalize hv : (w.store.exec _ "").1 = v
  cases v with
  | error e => trivial
  | ok v =>
    cases v with
    | none => exact fun m hm => by cases hm
    | some picked =>
      obtain ⟨id, h⟩ := picked
      have hfirst : Foremost (w.store.redis.queues (.ready node)) id := fetch_reply_foremost hv
      unfold Prog.Ends readPicked
      cases hd : deserializeMessage id h with
      | error e =>
        simp only [hd, Prog.wp_throw]
      | ok message =>
        simp only [hd, Prog.wp_pure]
        intro m hm
        cases hm
        rwa [(deserializeMessage_fields hd).2.1]

/-- In every run whose requeues are of messages whose priority reads back, the
members of a ready queue are scored by their requests, and a pick returns one of
the highest priority. -/
theorem reached_ready_order {weather : Weather} {x : Process}
    (hx : Reached svc weather (OnCommand RequeuesReadBack) x) (node : AdmissionNode) :
    (∀ id, id ∈ x.world.store.redis.queues (.ready node) →
      ∃ dto, (id, dto) ∈ x.world.store.enqueued ∧
        (x.world.store.redis.queues (.ready node)).score id = some (-1 * dto.priority.value)) ∧
    ∀ plugin limit m w',
      (pickIntoNs svc (.ready node) plugin limit).Runs (calmExec anyPoll) x.world
        (.ok (some m)) w' →
      m.id ∈ x.world.store.redis.queues (.ready node) ∧
        ∃ dto, (m.id, dto) ∈ x.world.store.enqueued ∧
          ∀ id dto', id ∈ x.world.store.redis.queues (.ready node) →
            (id, dto') ∈ x.world.store.enqueued → dto'.priority.value ≤ dto.priority.value := by
  have hs := reached_readyScores hx
  have hprov := reached_provenance hx
  constructor
  · intro id hid
    obtain ⟨k, hk⟩ := SortedSet.mem_iff.mp hid
    obtain ⟨dto, hdto, rfl⟩ := hs node k id hk
    exact ⟨dto, hdto, SortedSet.score_eq_some.mpr hk⟩
  · intro plugin limit m w' hr
    obtain ⟨k, hk, hleast⟩ := Prog.wp_runs (pickIntoNs_foremost node plugin limit) hr m rfl
    obtain ⟨dto, hdto, hkd⟩ := hs node k m.id hk
    refine ⟨SortedSet.mem_iff.mpr ⟨k, hk⟩, dto, hdto, fun id dto' hid hdto' => ?_⟩
    obtain ⟨l, hl⟩ := SortedSet.mem_iff.mp hid
    obtain ⟨dto'', hdto'', hld⟩ := hs node l id hl
    have hsame : dto' = dto'' := congrArg Prod.snd (hprov.unique _ hdto' _ hdto'' rfl)
    have hle := hleast l id hl
    rw [hkd, hld, ← hsame] at hle
    linarith

/-- A send of the message the sample queue yields fails, and its retry falls due. -/
def retriedSend (create : CreateDeviceMessage) (message : DeviceMessage) :
    List (Choice Handler Oracle Disturbance) :=
  List.flatten [
    [.start (.enqueue create), .turn 0 { id := sampleId }, .start .distribute], turns 1 2 {},
    [.start (.task (.distributeQueue sampleQueue))], turns 2 8 {},
    [.start (.task (.send "calin-chirpstack" message 0))], turns 3 10 { sent := .error {} },
    [.start .tick], turns 4 7 { now := 900000 },
    [.start (.task (.drain ⟨.retry, .retry⟩ 900000))], turns 5 5 {}]

def checkReadBack (c : RedisCmd) (s : Store) : Bool :=
  match c with
  | .moveMessageBetweenQueues a =>
    s.enqueued.all fun e => e.1 ≠ a.messageId ∨ e.2.priority.ReadsBack
  | _ => true

theorem checkReadBack_sound (c : RedisCmd) (s : Store) (h : checkReadBack c s = true) :
    RequeuesReadBack c s := by
  cases c with
  | moveMessageBetweenQueues a =>
    intro _ _ _ dto hdto
    have hd := of_decide_eq_true (List.all_eq_true.mp h _ hdto)
    exact hd.resolve_left (fun hne => hne rfl)
  | _ => trivial

/-- A retried command of priority 10 is back in its queue with score -10. -/
theorem retried_send_in_order :
    ∃ x : Process, sampleId ∈ x.world.store.redis.queues sampleQueue ∧
      ∃ dto, (sampleId, dto) ∈ x.world.store.enqueued ∧
        (x.world.store.redis.queues sampleQueue).score sampleId =
          some (-1 * dto.priority.value) := by
  obtain ⟨x, hx, hr⟩ := exists_reached vendorService {} (checkCommand checkReadBack)
    (retriedSend sampleCreate sampleMessage)
    (fun x => decide (sampleId ∈ x.world.store.redis.queues sampleQueue))
    (onCommand_of_check checkReadBack_sound) (by decide +kernel)
  have hid := of_decide_eq_true hr
  exact ⟨x, hid, (reached_ready_order hx ⟨"calin-chirpstack", "network", "unassigned"⟩).1 _ hid⟩

/-- Two commands of a priority that is not whole, for the same queue. -/
def fractionCreate (significand : Nat) : CreateDeviceMessage :=
  { sampleCreate with priority := { significand := significand, exponent := -1 } }

def fractionMessage : DeviceMessage :=
  { sampleMessage with priority := some 1 }

def fractionRetried : List (Choice Handler Oracle Disturbance) :=
  List.flatten [
    retriedSend (fractionCreate 15) fractionMessage,
    [.start (.enqueue (fractionCreate 12)), .turn 6 { id := againId }]]

/-- After a retry the command of priority 1.5 has score -1, and one of priority 1.2
is picked before it. -/
theorem fraction_loses_rank :
    (¬ ∀ x, Reached vendorService {} (fun _ _ => True) x → ∀ node id dto,
      id ∈ x.world.store.redis.queues (.ready node) → (id, dto) ∈ x.world.store.enqueued →
        (x.world.store.redis.queues (.ready node)).score id = some (-1 * dto.priority.value)) ∧
    ¬ ∀ x, Reached vendorService {} (fun _ _ => True) x → ∀ node plugin limit m w',
      (pickIntoNs vendorService (.ready node) plugin limit).Runs (calmExec anyPoll) x.world
        (.ok (some m)) w' → ∀ id dto dto', id ∈ x.world.store.redis.queues (.ready node) →
          (x.world.store.redis.messages id).isSome → (id, dto) ∈ x.world.store.enqueued →
          (m.id, dto') ∈ x.world.store.enqueued → dto.priority.value ≤ dto'.priority.value := by
  obtain ⟨x, hx, hr⟩ := exists_reached vendorService {} (fun _ _ => true) fractionRetried
    (fun x => (x.world.store.redis.queues sampleQueue).score sampleId = some (-1) ∧
      (x.world.store.redis.messages sampleId).isSome = true ∧
      x.world.store.enqueued.map (fun e => (e.1, e.2.priority)) =
        [(sampleId, (fractionCreate 15).priority), (againId, (fractionCreate 12).priority)] ∧
      ((pickIntoNs vendorService sampleQueue (calinChirpstack {}) none).play
        (scripted fun _ _ _ => true) granted x.world).any fun e =>
          e.1.toOption.any fun m => m.any fun m => m.id = againId)
    (fun _ _ _ => trivial) (by decide +kernel)
  obtain ⟨hscore, hlive, henq, hpick⟩ := of_decide_eq_true hr
  have hmem : sampleId ∈ x.world.store.redis.queues sampleQueue :=
    SortedSet.mem_iff.mpr ⟨_, SortedSet.score_eq_some.mp hscore⟩
  have hfirst : (sampleId, (fractionCreate 15).priority) ∈
      x.world.store.enqueued.map (fun e => (e.1, e.2.priority)) := by simp [henq]
  have hsecond : (againId, (fractionCreate 12).priority) ∈
      x.world.store.enqueued.map (fun e => (e.1, e.2.priority)) := by simp [henq]
  obtain ⟨⟨id, dto⟩, hdto, he⟩ := List.mem_map.mp hfirst
  obtain ⟨⟨id', dto'⟩, hdto', he'⟩ := List.mem_map.mp hsecond
  simp only [Prod.mk.injEq] at he he'
  obtain ⟨rfl, hprio⟩ := he
  obtain ⟨rfl, hprio'⟩ := he'
  constructor
  · intro hall
    have h := hall x hx _ _ dto hmem hdto
    rw [hprio] at h
    exact absurd (hscore.symm.trans h) (by decide +kernel)
  · intro hall
    obtain ⟨r, w', hrun, hm⟩ := runs_of_script hpick
    cases r with
    | error e => cases hm
    | ok picked =>
      obtain ⟨_, hp, hm⟩ := (Option.any_eq_true _ _).mp hm
      cases hp
      obtain ⟨m, rfl, hid⟩ := (Option.any_eq_true _ _).mp hm
      have hid := of_decide_eq_true hid
      have h := hall x hx _ _ _ m w' hrun _ dto dto' hmem hlive hdto (by rw [hid]; exact hdto')
      rw [hprio, hprio'] at h
      exact absurd h (by decide +kernel)

end DeviceMessaging
