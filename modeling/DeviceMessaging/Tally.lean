import Mathlib.Logic.Relation
import DeviceMessaging.CalmStep
import DeviceMessaging.EffectObserve
import DeviceMessaging.Handlers

namespace DeviceMessaging

open Effect

/-- A failure a vendor reported, of the message it is about. -/
abbrev Report :=
  MessageId × FailureContext

/-- What a vendor's answer to a send says went wrong. -/
def sendFailure (plugin : DeliveryPlugin) (answer : Except VendorError String) :
    Option FailureContext :=
  match answer with
  | .error err => some (plugin.parseError err)
  | .ok deliveryQueueId =>
    if deliveryQueueId = "" then some {
      reason := "Plugin returned an empty deliveryQueueId after sendOne"
      skipRetry := true }
    else none

def sendReport (svc : Service) (pluginId : PluginId) (message : DeviceMessage)
    (answer : Except VendorError String) : Option Report :=
  (svc.registry.delivery pluginId).bind fun plugin =>
    (sendFailure plugin answer).map fun context => (message.id, context)

/-- An event is about the message its delivery id is indexed to. -/
def eventReport (r : Redis) (event : ParsedIncomingEvent) : Option Report :=
  (truthy event.deliveryQueueId).bind fun x => (r.externals x).bind fun id =>
    event.failureContext.map fun context => (id, context)

/-- A stored event of a failed message: the handler that stored it, what a vendor
last reported in it, and the hash of the message at that time. -/
structure Failure where
  handler : Handler
  report : Option Report
  stored : Option MessageHash
  record : WebhookStoredRecord

/-- Notes taken of a run: the picks and the failures so far, and the last report. -/
structure Tally where
  picks : List MessageId := []
  failures : List Failure := []
  report : Option Report := none

/-- The failure event a record is, if it is one. -/
def Tally.failure (t : Tally) (h : Handler) (r : Redis) (record : WebhookStoredRecord) :
    Option Failure :=
  if record.event.message.deliveryStatus = .DELIVERY_FAILED then
    some ⟨h, t.report, record.event.message.id.bind r.messages, record⟩
  else none

def Tally.note (svc : Service) (h : Handler) (w : World) (c : Cmd) (r : Reply c) (t : Tally) :
    Tally :=
  match c, r with
  | .redis (.fetchNextMessageInQueueAndMove _), .ok (some (id, _)) =>
    { t with picks := id :: t.picks }
  | .redis (.webhookEnqueue record _), _ =>
    { t with failures := (t.failure h w.store.redis record).toList ++ t.failures }
  | .sendOneResult pluginId message, answer =>
    { t with report := sendReport svc pluginId message answer }
  | .fetchStatus _ _, .ok (some event) =>
    { t with report := eventReport w.store.redis event }
  | _, _ => t

/-- Polls may return any event. -/
abbrev everyPoll : PollRule :=
  fun _ _ _ => True

abbrev tallyExec (svc : Service) (h : Handler) :
    World × Tally → (c : Cmd) → Reply c → World × Tally → Prop :=
  observedExec (calmExec everyPoll) (Tally.note svc h)

abbrev tally (svc : Service) (h : Handler) : Monitor Cmd Reply (World × Tally) :=
  Monitor.ofExec (tallyExec svc h)

/-- What a handler is started with is reported too. -/
def Handler.report (h : Handler) (r : Redis) : Option Report :=
  match h with
  | .ingress _ event => eventReport r event
  | _ => none

/-- One step of a process whose handlers run from start to end: a handler, a
restart, or something that happens to the keyspace by itself. -/
inductive AtomicStep (svc : Service) : World × Tally → World × Tally → Prop
  | handle {s s' : World × Tally} (h : Handler) {w : World} {r : Except String Unit}
    (hs : startHandler h s.1 = some w)
    (hr : (handlerProgram svc h).Runs (tallyExec svc h)
      (w, { s.2 with report := h.report w.store.redis }) r s') : AtomicStep svc s s'
  | restart {s : World × Tally} : AtomicStep svc s (.boot s.1.store, s.2)
  | disturb {s : World × Tally} (d : Disturbance) :
    AtomicStep svc s ({ s.1 with store := s.1.store.disturb d }, s.2)

/-- The states of the runs from an empty store. -/
abbrev Atomically (svc : Service) : World × Tally → Prop :=
  Relation.ReflTransGen (AtomicStep svc) (.boot .empty, {})

variable {svc : Service} {h : Handler} {s : World × Tally}

/-- The runs that are tallied are the runs. -/
theorem tallied_iff {w w' : World} {g : Tally} {r : Except String Unit} :
    (∃ t, (handlerProgram svc h).Runs (tallyExec svc h) (w, g) r (w', t)) ↔
      (handlerProgram svc h).Runs (calmExec everyPoll) w r w' := by
  constructor
  · rintro ⟨t, ht⟩
    exact Prog.runs_of_observed ht
  · exact fun hr => Prog.runs_observed hr g

/-- Every run of a handler is a step. -/
theorem AtomicStep.of_runs {w w' : World} {r : Except String Unit}
    (hs : startHandler h s.1 = some w)
    (hr : (handlerProgram svc h).Runs (calmExec everyPoll) w r w') :
    ∃ t, AtomicStep svc s (w', t) := by
  obtain ⟨t, ht⟩ := tallied_iff.mpr hr
  exact ⟨t, .handle h hs ht⟩

/-- The state after a Redis command. -/
def afterCommand (svc : Service) (h : Handler) (c : RedisCmd) (id : MessageId)
    (s : World × Tally) : World × Tally :=
  (s.1.after c id, Tally.note svc h s.1 (.redis c) (s.1.store.exec c id).1 s.2)

section Rules

variable {E : String → World × Tally → Prop}

theorem tally_redis {c : RedisCmd} {Q : c.Value → World × Tally → Prop} :
    (redis c).wp (tally svc h) Q E s ↔
      ∀ id, c.Fresh id s.1.store →
        Prog.Ends Q E (s.1.store.exec c id).1 (afterCommand svc h c id s) := by
  unfold redis
  rw [Prog.wp_bind, Prog.wp_command]
  constructor
  · intro hc id hf
    have hr := hc.2 _ (afterCommand svc h c id s) ⟨calmExec_redis.mpr ⟨id, hf, rfl, rfl⟩, rfl⟩
    cases he : (s.1.store.exec c id).1 <;> rw [he] at hr <;> exact hr
  · refine fun hc => ⟨trivial, fun r s' hr => ?_⟩
    obtain ⟨hr, ht⟩ := hr
    obtain ⟨id, hf, rfl, hw⟩ := calmExec_redis.mp hr
    have he := hc id hf
    obtain rfl : s' = afterCommand svc h c id s := Prod.ext hw ht
    cases hv : (s.1.store.exec c id).1 <;> rw [hv] at he <;> exact he

theorem tally_plain {c : RedisCmd} {Q : c.Value → World × Tally → Prop}
    (hc : c.drawsId = false) :
    (redis c).wp (tally svc h) Q E s ↔
      Prog.Ends Q E (s.1.store.exec c "").1 (afterCommand svc h c "" s) := by
  rw [tally_redis]
  constructor
  · intro hq
    exact hq "" fun hd => absurd (hc.symm.trans hd) (by decide)
  · intro hq id _
    have he : s.1.store.exec c id = s.1.store.exec c "" := exec_plain hc s.1.store id ""
    unfold afterCommand World.after
    rw [he]
    exact hq

theorem tally_hgetall {id : MessageId} {Q : (RedisCmd.hgetall id).Value → World × Tally → Prop} :
    (redis (.hgetall id)).wp (tally svc h) Q E s ↔ Q (s.1.store.redis.messages id) s :=
  tally_plain rfl

theorem tally_getExternalIndex {x : String}
    {Q : (RedisCmd.getExternalIndex x).Value → World × Tally → Prop} :
    (redis (.getExternalIndex x)).wp (tally svc h) Q E s ↔ Q (s.1.store.redis.externals x) s :=
  tally_plain rfl

theorem tally_zscore {q : QueueKey} {id : MessageId}
    {Q : (RedisCmd.zscore q id).Value → World × Tally → Prop} :
    (redis (.zscore q id)).wp (tally svc h) Q E s ↔ Q ((s.1.store.redis.queues q).score id) s :=
  tally_plain rfl

theorem tally_hmget {id : MessageId} {Q : (RedisCmd.hmget id).Value → World × Tally → Prop} :
    (redis (.hmget id)).wp (tally svc h) Q E s ↔
      Q ((s.1.store.redis.messages id).bind (·.deliveryQueueId),
        (s.1.store.redis.messages id).bind (·.concurrencyRateLimitKey)) s :=
  tally_plain rfl

/-- A command that only asks. -/
theorem tally_asks {c : Cmd} {Q : Reply c → World × Tally → Prop}
    (hc : ∀ o w r w', respond o c w = some (r, w') → w' = w)
    (hn : ∀ w r t, Tally.note svc h w c r t = t) (hQ : ∀ r, Q r s) :
    (Prog.command c : Engine (Reply c)).wp (tally svc h) Q E s := by
  refine ⟨trivial, fun r ⟨w', t'⟩ hr => ?_⟩
  obtain ⟨⟨-, o, -, hr⟩, ht⟩ := hr
  obtain rfl : w' = s.1 := hc o s.1 r w' hr
  obtain rfl : t' = s.2 := ht.trans (hn _ _ _)
  exact hQ r

theorem tally_dateNow {Q : Nat → World × Tally → Prop} (hQ : ∀ now, Q now s) :
    dateNow.wp (tally svc h) Q E s := by
  refine tally_asks (fun o w r w' he => ?_) (fun _ _ _ => rfl) hQ
  cases he
  rfl

theorem tally_ulid {Q : String → World × Tally → Prop} (hQ : ∀ id, Q id s) :
    ulid.wp (tally svc h) Q E s := by
  refine tally_asks (fun o w r w' he => ?_) (fun _ _ _ => rfl) hQ
  cases he
  rfl

theorem tally_mathRandom {Q : ℚ → World × Tally → Prop} (hQ : ∀ x, Q x s) :
    mathRandom.wp (tally svc h) Q E s := by
  refine tally_asks (fun o w r w' he => ?_) (fun _ _ _ => rfl) hQ
  simp only [respond] at he
  split at he
  next =>
    cases he
    rfl
  next => cases he

/-- A hash is loaded as it is, or not at all. -/
theorem tally_getMessageById {id : MessageId} {Q : Option DeviceMessage → World × Tally → Prop}
    (hnone : Q none s) (herror : ∀ e, E e s)
    (hsome : ∀ hash message, s.1.store.redis.messages id = some hash →
      deserializeMessage id hash = .ok message → Q (some message) s) :
    (getMessageById id).wp (tally svc h) Q E s := by
  unfold getMessageById
  rw [Prog.wp_bind, tally_hgetall]
  cases hh : s.1.store.redis.messages id with
  | none => exact hnone
  | some hash =>
    simp only [readHash, Option.map_some, readPicked]
    cases hm : deserializeMessage id hash with
    | ok message => exact hsome hash message hh hm
    | error e => exact herror e

end Rules

end DeviceMessaging
