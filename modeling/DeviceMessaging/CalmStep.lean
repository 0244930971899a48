import DeviceMessaging.Outgoing

namespace DeviceMessaging

open Effect

/-- What a run assumes of the events its polls return. -/
abbrev PollRule :=
  World → PluginId → ParsedIncomingEvent → Prop

def PollRule.Meets (polls : PollRule) (w : World) (c : Cmd) (r : Reply c) : Prop :=
  match c, r with
  | .fetchStatus pluginId _, .ok (some event) => polls w pluginId event
  | _, _ => True

/-- One command where Redis answers: the clock, the vendors and the ids drawn are
arbitrary, up to the rule for polled events. -/
def calmExec (polls : PollRule) (w : World) (c : Cmd) (r : Reply c) (w' : World) : Prop :=
  polls.Meets w c r ∧ ∃ o : Oracle, o.fault = none ∧ respond o c w = some (r, w')

/-- Programs that run from start to end without anyone in between. -/
abbrev calm (polls : PollRule) : Monitor Cmd Reply World :=
  Monitor.ofExec (calmExec polls)

def World.after (w : World) (c : RedisCmd) (id : MessageId) : World :=
  { w with store := (w.store.exec c id).2 }

variable {polls : PollRule} {w : World}

theorem calmExec_redis {c : RedisCmd} {r : Except String c.Value} {w' : World} :
    calmExec polls w (.redis c) r w' ↔
      ∃ id, c.Fresh id w.store ∧ r = (w.store.exec c id).1 ∧ w' = w.after c id := by
  constructor
  · rintro ⟨-, o, ho, h⟩
    simp only [respond, execRedis, ho] at h
    split at h
    next hf =>
      cases h
      exact ⟨o.id, hf, rfl, rfl⟩
    next => cases h
  · rintro ⟨id, hf, rfl, rfl⟩
    refine ⟨trivial, { id := id }, rfl, ?_⟩
    simp only [respond, execRedis, hf, ↓reduceIte]
    rfl

theorem exec_plain {c : RedisCmd} (hc : c.drawsId = false) (s : Store) (i j : MessageId) :
    s.exec c i = s.exec c j := by
  cases c <;> first | rfl | cases hc

section Rules

variable {α : Type} {E : String → World → Prop}

theorem wp_redis {c : RedisCmd} {Q : c.Value → World → Prop} :
    (redis c).wp (calm polls) Q E w ↔
      ∀ id, c.Fresh id w.store → Prog.Ends Q E (w.store.exec c id).1 (w.after c id) := by
  unfold redis
  rw [Prog.wp_bind, Prog.wp_command]
  constructor
  · intro h id hf
    have hr := h.2 _ _ (calmExec_redis.mpr ⟨id, hf, rfl, rfl⟩)
    cases he : (w.store.exec c id).1 <;> rw [he] at hr <;> exact hr
  · refine fun h => ⟨trivial, fun r w' hr => ?_⟩
    obtain ⟨id, hf, rfl, rfl⟩ := calmExec_redis.mp hr
    have he := h id hf
    cases hv : (w.store.exec c id).1 <;> rw [hv] at he <;> exact he

/-- A command that draws no id has one outcome. -/
theorem wp_redis_plain {c : RedisCmd} {Q : c.Value → World → Prop} (hc : c.drawsId = false) :
    (redis c).wp (calm polls) Q E w ↔
      Prog.Ends Q E (w.store.exec c "").1 (w.after c "") := by
  rw [wp_redis]
  constructor
  · intro h
    exact h "" fun hd => absurd (hc.symm.trans hd) (by decide)
  · intro h id _
    unfold World.after
    rw [exec_plain hc w.store id ""]
    exact h

theorem wp_hgetall {id : MessageId}
    {Q : (RedisCmd.hgetall id).Value → World → Prop} :
    (redis (.hgetall id)).wp (calm polls) Q E w ↔ Q (w.store.redis.messages id) w :=
  wp_redis_plain rfl

theorem wp_getExternalIndex {x : String}
    {Q : (RedisCmd.getExternalIndex x).Value → World → Prop} :
    (redis (.getExternalIndex x)).wp (calm polls) Q E w ↔ Q (w.store.redis.externals x) w :=
  wp_redis_plain rfl

theorem wp_mgetCorrelationIndexes {keys : List String}
    {Q : (RedisCmd.mgetCorrelationIndexes keys).Value → World → Prop} :
    (redis (.mgetCorrelationIndexes keys)).wp (calm polls) Q E w ↔
      Q (keys.map w.store.redis.correlations) w :=
  wp_redis_plain rfl

theorem wp_zscore {q : QueueKey} {id : MessageId}
    {Q : (RedisCmd.zscore q id).Value → World → Prop} :
    (redis (.zscore q id)).wp (calm polls) Q E w ↔ Q ((w.store.redis.queues q).score id) w :=
  wp_redis_plain rfl

theorem wp_hmget {id : MessageId}
    {Q : (RedisCmd.hmget id).Value → World → Prop} :
    (redis (.hmget id)).wp (calm polls) Q E w ↔
      Q ((w.store.redis.messages id).bind (·.deliveryQueueId),
        (w.store.redis.messages id).bind (·.concurrencyRateLimitKey)) w :=
  wp_redis_plain rfl

@[simp] theorem wp_dateNow {Q : Nat → World → Prop} :
    dateNow.wp (calm polls) Q E w ↔ ∀ now, Q now w := by
  unfold dateNow
  rw [Prog.wp_command]
  constructor
  · exact fun h now => h.2 now w ⟨trivial, { now := now }, rfl, rfl⟩
  · refine fun h => ⟨trivial, fun now w' hr => ?_⟩
    obtain ⟨-, o, -, hr⟩ := hr
    cases hr
    exact h o.now

@[simp] theorem wp_ulid {Q : String → World → Prop} :
    ulid.wp (calm polls) Q E w ↔ ∀ id, Q id w := by
  unfold ulid
  rw [Prog.wp_command]
  constructor
  · exact fun h id => h.2 id w ⟨trivial, { id := id }, rfl, rfl⟩
  · refine fun h => ⟨trivial, fun id w' hr => ?_⟩
    obtain ⟨-, o, -, hr⟩ := hr
    cases hr
    exact h o.id

@[simp] theorem wp_mathRandom {Q : ℚ → World → Prop} :
    mathRandom.wp (calm polls) Q E w ↔ ∀ x : ℚ, 0 ≤ x ∧ x < 1 → Q x w := by
  unfold mathRandom
  rw [Prog.wp_command]
  constructor
  · intro h x hx
    refine h.2 x w ⟨trivial, { random := x }, rfl, ?_⟩
    simp [respond, hx]
  · refine fun h => ⟨trivial, fun x w' hr => ?_⟩
    obtain ⟨-, o, -, hr⟩ := hr
    simp only [respond] at hr
    split at hr
    next hx =>
      cases hr
      exact h o.random hx
    next => cases hr

@[simp] theorem wp_hasInFlightSend {id : MessageId} {Q : Bool → World → Prop} :
    (Prog.command (Cmd.hasInFlightSend id) : Engine Bool).wp (calm polls) Q E w ↔
      Q (w.inFlightSends id).isSome w := by
  constructor
  · exact fun h => h.2 _ w ⟨trivial, {}, rfl, rfl⟩
  · refine fun h => ⟨trivial, fun b w' hr => ?_⟩
    obtain ⟨-, o, -, hr⟩ := hr
    cases hr
    exact h

@[simp] theorem wp_trackSend {p : PluginId} {m : DeviceMessage} {Q : Unit → World → Prop} :
    (Prog.command (Cmd.trackSend p m) : Engine Unit).wp (calm polls) Q E w ↔
      Q () (w.track p m) := by
  constructor
  · exact fun h => h.2 () _ ⟨trivial, {}, rfl, rfl⟩
  · refine fun h => ⟨trivial, fun b w' hr => ?_⟩
    obtain ⟨-, o, -, hr⟩ := hr
    cases hr
    exact h

@[simp] theorem wp_settleSend {id : MessageId} {token : Nat} {Q : Unit → World → Prop} :
    (Prog.command (Cmd.settleSend id token) : Engine Unit).wp (calm polls) Q E w ↔
      Q () (w.settle id token) := by
  constructor
  · exact fun h => h.2 () _ ⟨trivial, {}, rfl, rfl⟩
  · refine fun h => ⟨trivial, fun b w' hr => ?_⟩
    obtain ⟨-, o, -, hr⟩ := hr
    cases hr
    exact h

@[simp] theorem wp_getRemoteStatus {p : PluginId} {m : DeviceMessage}
    {Q : Except VendorError String → World → Prop} :
    (Prog.command (Cmd.getRemoteStatus p m) : Engine (Except VendorError String)).wp
      (calm polls) Q E w ↔ ∀ answer, Q answer w := by
  constructor
  · exact fun h answer => h.2 answer w ⟨trivial, { remote := answer }, rfl, rfl⟩
  · refine fun h => ⟨trivial, fun b w' hr => ?_⟩
    obtain ⟨-, o, -, hr⟩ := hr
    cases hr
    exact h o.remote

@[simp] theorem wp_fetchStatus {p : PluginId} {m : DeviceMessage}
    {Q : Except VendorError (Option ParsedIncomingEvent) → World → Prop} :
    (Prog.command (Cmd.fetchStatus p m) : Engine (Except VendorError _)).wp (calm polls) Q E w ↔
      ∀ answer, (∀ event, answer = .ok (some event) → polls w p event) → Q answer w := by
  constructor
  · intro h answer ha
    refine h.2 answer w ⟨?_, { polled := answer }, rfl, rfl⟩
    unfold PollRule.Meets
    split
    next heq => cases heq; exact ha _ rfl
    next => trivial
  · refine fun h => ⟨trivial, fun b w' hr => ?_⟩
    obtain ⟨hm, o, -, hr⟩ := hr
    cases hr
    refine h o.polled fun event he => ?_
    simpa [PollRule.Meets, he] using hm

end Rules

end DeviceMessaging
