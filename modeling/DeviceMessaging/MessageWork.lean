import DeviceMessaging.CalmMoves
import DeviceMessaging.PlainPrograms

namespace DeviceMessaging

open Effect
open Effect.Prog (wp_mono wp_bind wp_pure wp_command wp_tryCatch keeps_bind keeps_pure keeps_throw)

/-- How a handler stands to a message: it has none, an `ns` drain has loaded one and is yet to
ask whether its send is held, a load has found none to handle, a drain or an event is at work on
one, a pass has picked one, a send has one in hand, or a cancel has claimed one. -/
inductive Work
  | free
  | loaded (id : MessageId)
  | missing (id : MessageId)
  | busy (id : MessageId)
  | picked (id : MessageId)
  | sending (id : MessageId)
  | claimed (id : MessageId)
  deriving DecidableEq

/-- The message the handler may retry or fail. -/
def Work.On (g : Work) (id : MessageId) : Prop :=
  g = .busy id ∨ g = .sending id

/-- The message a hash reads as. -/
def readsAs (id : MessageId) (raw : Option MessageHash) : Option DeviceMessage :=
  raw.bind fun hash => (deserializeMessage id hash).toOption

/-- What a handler makes of a hash it loads. The retry row only moves its members, a send has its
message, and a cancel takes none before its claim. -/
def Work.load (svc : Service) (h : Handler) (g : Work) (id : MessageId) (raw : Option MessageHash) :
    Work :=
  match h with
  | .task (.drain queue _) =>
    if queue.stage = .retry then .free
    else
      match readsAs id raw with
      | none => .missing id
      | some message =>
        if queue.stage = .ns ∧ g ≠ .busy id then
          if (owner svc message).isSome then .loaded id else .missing id
        else .busy id
  | .ingress _ _ => if (readsAs id raw).isSome then .busy id else .missing id
  | _ => g

theorem load_cases (svc : Service) (h : Handler) (g : Work) (id : MessageId)
    (raw : Option MessageHash) :
    g.load svc h id raw = g ∨ g.load svc h id raw = .free ∨ g.load svc h id raw = .loaded id ∨
      g.load svc h id raw = .busy id ∨ g.load svc h id raw = .missing id := by
  unfold Work.load
  split
  next =>
    split
    next => exact .inr (.inl rfl)
    next =>
      split
      next => exact .inr (.inr (.inr (.inr rfl)))
      next =>
        split
        next =>
          split
          next => exact .inr (.inr (.inl rfl))
          next => exact .inr (.inr (.inr (.inr rfl)))
        next => exact .inr (.inr (.inr (.inl rfl)))
  next =>
    split
    next => exact .inr (.inr (.inr (.inl rfl)))
    next => exact .inr (.inr (.inr (.inr rfl)))
  next => exact .inl rfl

/-- What a claim makes of a handler: only a cancel goes on with the message. -/
def Work.claim (h : Handler) (g : Work) (id : MessageId) : Work :=
  match h with
  | .task (.cancelMessage _) => .claimed id
  | _ => g

/-- A picked message is to be sent if it reads. -/
def Work.pick (raw : Option (MessageId × MessageHash)) : Work :=
  match raw with
  | some (id, hash) => if (readsAs id (some hash)).isSome then .picked id else .free
  | none => .free

/-- Where the reply to a command takes a handler. -/
def Work.after (svc : Service) (h : Handler) (g : Work) (c : Cmd) (r : Reply c) : Work :=
  match c, r with
  | .redis (.hgetall id), .ok raw => g.load svc h id raw
  | .redis (.fetchNextMessageInQueueAndMove _), .ok raw => .pick raw
  | .redis (.removeMessageFromQueue _ id), .ok true => g.claim h id
  | .redis (.moveMessageBetweenQueues _), _ => .free
  | .redis (.enterRetry _), _ => .free
  | .redis (.messageFullCleanup _ _), _ => .free
  | .hasInFlightSend id, held => if held then .free else .busy id
  | .trackSend _ _, _ => .free
  | .settleSend _ _, _ => .free
  | .endDrain _, _ => .free
  | _, _ => g

/-- What a reply can make of a handler. -/
inductive WorkTurn (svc : Service) (h : Handler) (g : Work) : (c : Cmd) → Reply c → Work → Prop
  | same {c : Cmd} {r : Reply c} : WorkTurn svc h g c r g
  | free {c : Cmd} {r : Reply c} : WorkTurn svc h g c r .free
  | loaded {id : MessageId} {raw : Option MessageHash} :
    WorkTurn svc h g (.redis (.hgetall id)) (.ok raw) (g.load svc h id raw)
  | picked {args : FetchArgs} {id : MessageId} {hash : MessageHash} {message : DeviceMessage}
    (hread : readsAs id (some hash) = some message) :
    WorkTurn svc h g (.redis (.fetchNextMessageInQueueAndMove args)) (.ok (some (id, hash)))
      (.picked id)
  | claimed {message : DeviceMessage} {q : QueueKey} {id : MessageId}
    (hh : h = .task (.cancelMessage message)) :
    WorkTurn svc h g (.redis (.removeMessageFromQueue q id)) (.ok true) (.claimed id)
  | asked {id : MessageId} : WorkTurn svc h g (.hasInFlightSend id) false (.busy id)

theorem workTurn_after (svc : Service) (h : Handler) (g : Work) (c : Cmd) (r : Reply c) :
    WorkTurn svc h g c r (g.after svc h c r) := by
  cases c with
  | redis c =>
    cases c with
    | hgetall id =>
      cases r with
      | error e => exact .same
      | ok raw => exact .loaded
    | fetchNextMessageInQueueAndMove args =>
      cases r with
      | error e => exact .same
      | ok picked =>
        change WorkTurn svc h g _ _ (Work.pick picked)
        unfold Work.pick
        split
        next id hash =>
          split
          next hread =>
            obtain ⟨message, hm⟩ := Option.isSome_iff_exists.mp hread
            exact .picked hm
          next => exact .free
        next => exact .free
    | removeMessageFromQueue q id =>
      cases r with
      | error e => exact .same
      | ok removed =>
        cases removed with
        | false => exact .same
        | true =>
          change WorkTurn svc h g _ _ (g.claim h id)
          unfold Work.claim
          split
          next message => exact .claimed rfl
          next => exact .same
    | moveMessageBetweenQueues args => cases r <;> exact .free
    | enterRetry args => cases r <;> exact .free
    | messageFullCleanup message qs => cases r <;> exact .free
    | _ => cases r <;> exact .same
  | hasInFlightSend id =>
    cases r with
    | true => exact .free
    | false => exact .asked
  | trackSend p message => exact .free
  | settleSend id token => exact .free
  | endDrain q => exact .free
  | _ => exact .same

/-- A row of a tick whose queue is that of `ns` only if its stage is. -/
def Task.Fits (t : Task) : Prop :=
  match t with
  | .drain queue _ => queue.key = .ns → queue.stage = .ns
  | _ => True

/-- Who tells of a message, sends it, retries it or purges it has it in hand. -/
def works (svc : Service) (h : Handler) : Monitor Cmd Reply Work where
  allows g c := match c with
    | .redis (.enqueueDeviceMessage dto _) => (svc.registry.delivery dto.pluginId).isSome
    | .redis (.enterRetry a) => g.On a.messageId
    | .redis (.messageFullCleanup message _) => g.On message.id ∨ g = .claimed message.id
    | .redis (.webhookEnqueue record _) =>
      ∀ id, record.event.message.id = some id → g.On id ∨ g = .picked id
    | .redis (.moveMessageBetweenQueues a) => a.sourceQueue = .ns → g = .sending a.messageId
    | .redis (.removeMessageFromQueue q id) => q = .ns → g = .busy id ∨ g = .missing id
    | .redis (.fetchNextMessageInQueueAndMove a) =>
      (∃ node, a.sourceQueue = .ready node) ∧ a.destinationQueue = .ns ∧ g = .free
    | .hasInFlightSend id => g = .loaded id ∨ g = .busy id
    | .sendOne p message => g = .sending message.id ∧ ∃ token, h = .task (.send p message token)
    | .sendOneResult p message =>
      g = .sending message.id ∧ ∃ token, h = .task (.send p message token)
    | .trackSend _ message => g = .picked message.id
    | .settleSend id token => ∃ p message, h = .task (.send p message token) ∧ message.id = id
    | .spawn t => t.Fits ∧ ∀ p message token, t ≠ .send p message token
    | _ => True
  next g c r g' := g' = g.after svc h c r

/-- A command that says nothing of a message. -/
def Cmd.Aside (c : Cmd) : Prop :=
  match c with
  | .redis (.enqueueDeviceMessage _ _) => False
  | .redis (.hgetall _) => False
  | .redis (.fetchNextMessageInQueueAndMove _) => False
  | .redis (.removeMessageFromQueue _ _) => False
  | .redis (.moveMessageBetweenQueues _) => False
  | .redis (.enterRetry _) => False
  | .redis (.messageFullCleanup _ _) => False
  | .redis (.webhookEnqueue _ _) => False
  | .hasInFlightSend _ => False
  | .trackSend _ _ => False
  | .settleSend _ _ => False
  | .sendOne _ _ => False
  | .sendOneResult _ _ => False
  | .endDrain _ => False
  | .spawn _ => False
  | _ => True

variable {svc : Service} {h : Handler} {g t : Work} {id : MessageId} {plugin : DeliveryPlugin}
  {message : DeviceMessage}

theorem works_aside {J : Work → Prop} {c : Cmd} (hc : c.Aside) :
    (Prog.command c : Engine (Reply c)).Keeps (works svc h) J := by
  have hsame : ∀ g : Work, (works svc h).allows g c ∧ ∀ r, g.after svc h c r = g := by
    intro g
    cases c with
    | redis c => cases c <;> first | exact hc.elim | exact ⟨trivial, fun _ => rfl⟩
    | _ => first | exact hc.elim | exact ⟨trivial, fun _ => rfl⟩
  intro g hg
  refine ⟨(hsame g).1, ?_⟩
  rintro r g' rfl
  rw [(hsame g).2]
  exact hg

theorem works_redis_aside {J : Work → Prop} {c : RedisCmd} (hc : (Cmd.redis c).Aside) :
    (redis c).Keeps (works svc h) J :=
  keeps_redis (works_aside hc)

/-- The program is allowed, wherever it ends. -/
abbrev Works {α : Type} (svc : Service) (h : Handler) (p : Engine α) (g : Work) : Prop :=
  p.wp (works svc h) (fun _ _ => True) (fun _ _ => True) g

theorem works_of_keeps {α : Type} {p : Engine α} (hp : p.Keeps (works svc h) fun _ => True)
    (g : Work) : Works svc h p g :=
  hp g trivial

theorem emit_works {pm : PartialMessage} (hg : ∀ x, pm.id = some x → g.On x ∨ g = .picked x) :
    (emitDeliveryEvent svc pm).wp (works svc h) (fun _ g' => g' = g) (fun _ g' => g' = g) g := by
  have hsame : (emitDeliveryEvent svc pm).Keeps (works svc h) (· = g) := by
    unfold emitDeliveryEvent
    split
    next =>
      unfold storeAndEmit
      refine keeps_bind (works_aside (c := .dateNow) trivial) fun occurredAt => ?_
      refine keeps_bind (works_aside (c := .ulid) trivial) fun eventId => ?_
      cases hb : buildWebhookEvent pm occurredAt eventId with
      | error e => exact keeps_pure ()
      | ok event =>
        refine keeps_bind (works_aside (c := .dateNow) trivial) fun now => keeps_redis ?_
        rintro g' rfl
        refine ⟨fun x hx => hg x ?_, ?_⟩
        · rw [← (buildWebhookEvent_id hb).1]
          exact hx
        · rintro r g'' rfl
          rfl
    next => exact keeps_pure ()
  exact hsame g rfl

theorem backoff_works {J : Work → Prop} (n : ParsedInt) (delivery : DeliveryConfig) :
    (calculateBackoffDelay n delivery).Keeps (works svc h) J :=
  keeps_bind (works_aside (c := .mathRandom) trivial) fun _ => keeps_pure _

theorem entryWait_works {J : Work → Prop} (stage : StageName) (c : StageEntryContext) :
    ((stages stage).entryWaitMs c).Keeps (works svc h) J := by
  cases stage with
  | retry => exact backoff_works _ _
  | _ => exact keeps_pure _

/-- A message that is not in its queue stays in hand. -/
theorem enterRetry_works {q : QueueKey} {n : ParsedInt} {history : List FailureReason}
    (hg : g.On id) :
    (enterRetry svc id q n history plugin).wp (works svc h)
      (fun entered g' => entered = false → g' = g) (fun _ _ => True) g := by
  unfold enterRetry
  rw [wp_bind]
  refine wp_mono (works_redis_aside (c := .zscore q id) (J := (· = g)) trivial _ rfl) ?_
    fun _ _ _ => trivial
  rintro inQueue g rfl
  cases inQueue with
  | none => exact fun _ => rfl
  | some k =>
    dsimp only
    rw [wp_bind]
    refine wp_mono (works_aside (c := .dateNow) (J := (· = g)) trivial _ rfl) ?_
      fun _ _ _ => trivial
    rintro now g rfl
    rw [wp_bind]
    refine wp_mono (entryWait_works (J := (· = g)) _ _ _ rfl) ?_ fun _ _ _ => trivial
    rintro wait g rfl
    rw [wp_bind]
    refine wp_mono (works_redis_aside (c := .hmget id) (J := (· = g)) trivial _ rfl) ?_
      fun _ _ _ => trivial
    rintro fields g rfl
    rw [wp_bind]
    unfold redis
    rw [wp_bind, wp_command]
    refine ⟨hg, fun r g' _ => ?_⟩
    cases r with
    | error e => trivial
    | ok v => exact nofun

theorem purge_works (hg : g.On message.id ∨ g = .claimed message.id) :
    Works svc h (purge message plugin) g := by
  unfold Works purge redis
  rw [wp_bind, wp_command]
  refine ⟨hg, fun r g' _ => ?_⟩
  cases r <;> trivial

/-- The handler has the message in hand once it has loaded it, and has it amiss otherwise. -/
structure Takes (svc : Service) (h : Handler) (g : Work) (id : MessageId) (t : Work) : Prop where
  found : ∀ raw message, readsAs id raw = some message → g.load svc h id raw = t
  none : ∀ raw, readsAs id raw = none → g.load svc h id raw = t ∨ g.load svc h id raw = .missing id
  on : t.On id

theorem takes_ingress {pluginId : PluginId} {event : ParsedIncomingEvent} :
    Takes svc (.ingress pluginId event) g id (.busy id) where
  found raw message hm := by
    unfold Work.load
    simp only [hm, Option.isSome_some, ↓reduceIte]
  none raw hm := by
    unfold Work.load
    simp [hm]
  on := .inl rfl

theorem takes_drain {queue : StageQueue} {now : Nat} (hretry : queue.stage ≠ .retry)
    (hg : queue.stage ≠ .ns ∨ g = .busy id) :
    Takes svc (.task (.drain queue now)) g id (.busy id) where
  found raw message hm := by
    unfold Work.load
    simp only [hm, if_neg hretry]
    refine if_neg ?_
    rintro ⟨hstage, hne⟩
    exact hg.elim (fun h => h hstage) hne
  none raw hm := by
    unfold Work.load
    simp only [hm, if_neg hretry]
    exact .inr trivial
  on := .inl rfl

theorem takes_send {p : PluginId} {m : DeviceMessage} {token : Nat} :
    Takes svc (.task (.send p m token)) (.sending id) id (.sending id) where
  found _ _ _ := rfl
  none _ _ := .inl rfl
  on := .inr rfl

/-- A load has one of three ends: the message, none, or a throw. -/
theorem getMessageById_works {Q : Option DeviceMessage → Work → Prop} {E : String → Work → Prop}
    (hfound : ∀ raw message, readsAs id raw = some message → message.id = id →
      Q (some message) (g.load svc h id raw))
    (hnone : Q none (g.load svc h id none)) (hthrow : ∀ e g', E e g') :
    (getMessageById id).wp (works svc h) Q E g := by
  unfold getMessageById redis
  rw [wp_bind, wp_bind, wp_command]
  refine ⟨trivial, ?_⟩
  rintro r g' rfl
  cases r with
  | error e => exact hthrow _ _
  | ok raw =>
    rw [wp_pure]
    unfold readHash
    cases raw with
    | none => exact hnone
    | some hash =>
      simp only [Option.map_some, readPicked]
      cases hm : deserializeMessage id hash with
      | error e => exact hthrow _ _
      | ok message =>
        have hreads : readsAs id (some hash) = some message := by
          simp [readsAs, hm, Except.toOption]
        exact hfound (some hash) message hreads (deserializeMessage_fields hm).2.1

theorem retryOrFail_works {q : QueueKey} {context : FailureContext} (ht : Takes svc h g id t) :
    (retryOrFail svc id q context plugin).wp (works svc h)
      (fun out g' => out = .orphaned → g' = t ∨ g' = .missing id) (fun _ _ => True) g := by
  unfold retryOrFail
  rw [wp_bind]
  refine getMessageById_works (fun raw message hm hid => ?_) (fun _ => ht.none none rfl)
    fun _ _ => trivial
  rw [ht.found raw message hm]
  subst hid
  dsimp only
  rw [wp_bind]
  refine wp_mono (works_aside (c := .dateNow) (J := (· = t)) trivial _ rfl) ?_
    fun _ _ _ => trivial
  rintro timestamp g rfl
  split
  next =>
    rw [wp_bind]
    refine wp_mono (emit_works fun x hx => ?_) ?_ fun _ _ _ => trivial
    · rw [← Option.some.inj hx]
      exact .inl ht.on
    · rintro _ g rfl
      rw [wp_bind]
      exact wp_mono (purge_works (.inl ht.on)) (fun _ _ _ => nofun) fun _ _ _ => trivial
  next =>
    rw [wp_bind]
    refine wp_mono (enterRetry_works ht.on) (fun entered g' hg' => ?_) fun _ _ _ => trivial
    cases entered with
    | true => exact nofun
    | false => exact fun _ => .inl (hg' rfl)

theorem advance_works {fromStage : StageName} {x : Option String} {n : ParsedInt}
    (hg : stageKeyFor fromStage plugin.id = .ns → g = .sending id) :
    Works svc h (advance svc id plugin fromStage x n) g := by
  unfold Works advance
  split
  next => trivial
  next next _ =>
    rw [wp_bind]
    refine wp_mono (works_aside (c := .dateNow) (J := (· = g)) trivial _ rfl) ?_ fun _ _ _ => trivial
    rintro now g rfl
    rw [wp_bind]
    refine wp_mono (entryWait_works (J := (· = g)) next _ _ rfl) ?_ fun _ _ _ => trivial
    rintro wait g rfl
    unfold redis
    rw [wp_bind, wp_command]
    refine ⟨hg, fun r g' _ => ?_⟩
    cases r <;> trivial

theorem processFailure_works {event : ParsedIncomingEvent} (ht : ∀ g, Takes svc h g id t) :
    Works svc h (processFailure svc id event plugin) g := by
  unfold Works processFailure
  dsimp only
  rw [wp_bind]
  refine getMessageById_works (fun raw message hm _ => ?_) trivial fun _ _ => trivial
  rw [(ht g).found raw message hm]
  dsimp only
  split
  next => trivial
  next =>
    split
    next => trivial
    next => exact wp_mono (retryOrFail_works (ht _)) (fun _ _ _ => trivial) fun _ _ _ => trivial

theorem processSuccess_works {event : ParsedIncomingEvent} (ht : ∀ g, Takes svc h g id t) :
    Works svc h (processSuccess svc id event plugin) g := by
  unfold Works processSuccess
  rw [wp_bind]
  refine getMessageById_works (fun raw message hm hid => ?_) trivial fun _ _ => trivial
  rw [(ht g).found raw message hm]
  subst hid
  dsimp only
  rw [wp_bind]
  refine wp_mono (works_aside (c := .dateNow) (J := (· = t)) trivial _ rfl) ?_
    fun _ _ _ => trivial
  rintro timestamp g rfl
  rw [wp_bind]
  refine wp_mono (emit_works fun x hx => ?_) ?_ fun _ _ _ => trivial
  · rw [← Option.some.inj hx]
    exact .inl (ht g).on
  · rintro _ g rfl
    rw [wp_bind]
    exact wp_mono (purge_works (.inl (ht g).on)) (fun _ _ _ => trivial) fun _ _ _ => trivial

theorem processEvent_works {event : ParsedIncomingEvent}
    (ht : ∀ id g, Takes svc h g id (.busy id)) :
    Works svc h (processEvent svc event plugin) g := by
  unfold Works processEvent
  split
  next =>
    rw [wp_bind]
    exact wp_mono (emit_works fun x hx => nomatch hx) (fun _ _ _ => trivial) fun _ _ _ => trivial
  next =>
    split
    next => trivial
    next x _ =>
      unfold getMessageIdFromDeliveryQueueId
      rw [wp_bind, wp_bind]
      refine wp_mono (works_of_keeps (works_redis_aside (c := .getExternalIndex x) trivial) g)
        (fun key g _ => ?_) fun _ _ _ => trivial
      rw [wp_pure]
      cases messageIdFromKey key with
      | none => trivial
      | some id =>
        dsimp only
        unfold processIndexed
        split
        next =>
          rw [wp_bind]
          exact wp_mono (advance_works nofun) (fun _ _ _ => trivial) fun _ _ _ => trivial
        next =>
          split
          next => exact processFailure_works (ht id)
          next =>
            split
            next => trivial
            next => exact processSuccess_works (ht id)

section Drain

variable {queue : StageQueue} {now : Nat} {age : Int}

/-- The handler of one row of a tick. -/
abbrev Row (queue : StageQueue) (now : Nat) : Handler :=
  .task (.drain queue now)

/-- A row whose action takes the members in hand as they are loaded. -/
def StageQueue.Acts (queue : StageQueue) : Prop :=
  queue.stage ≠ .retry ∧ queue.stage ≠ .ns

theorem takes_acts (ha : queue.Acts) (id : MessageId) (g : Work) :
    Takes svc (Row queue now) g id (.busy id) :=
  takes_drain ha.1 (.inl ha.2)

/-- What an action has to leave a member of the `ns` queue in. -/
abbrev ActionWorks (svc : Service) (queue : StageQueue) (now : Nat) (id : MessageId)
    (p : Engine StageOutcome) (g : Work) : Prop :=
  p.wp (works svc (Row queue now))
    (fun out g' => queue.stage = .ns → out = .orphaned → g' = .busy id ∨ g' = .missing id)
    (fun _ _ => True) g

theorem nsAction_works {c : StageActionContext} (hns : queue.stage = .ns)
    (hg : g = .loaded c.message.id ∨ g = .busy c.message.id) :
    ActionWorks svc queue now c.message.id (nsAction svc c) g := by
  have hretry : queue.stage ≠ .retry := by
    rw [hns]
    decide
  unfold ActionWorks nsAction
  rw [wp_bind, wp_command]
  refine ⟨hg, ?_⟩
  rintro held g' rfl
  cases held with
  | true => exact fun _ => nofun
  | false =>
    exact wp_mono (retryOrFail_works (takes_drain hretry (.inr rfl))) (fun _ _ hout _ => hout)
      fun _ _ _ => trivial

theorem timeOut_works (ha : queue.Acts) {name : StageName} {q : QueueKey}
    {c : StageActionContext} : Works svc (Row queue now) (timeOut svc name q c) g :=
  wp_mono (retryOrFail_works (takes_acts ha c.message.id g)) (fun _ _ _ => trivial)
    fun _ _ _ => trivial

theorem relayNodeAction_works (ha : queue.Acts) {c : StageActionContext} :
    Works svc (Row queue now) (relayNodeAction svc c) g := by
  unfold Works relayNodeAction
  split
  next =>
    rw [wp_bind]
    have hremote : (remoteStillQueued c).Keeps (works svc (Row queue now)) fun _ => True := by
      refine keeps_bind (works_aside (c := .getRemoteStatus _ _) trivial) fun answer => ?_
      cases answer <;> exact keeps_pure _
    refine wp_mono (works_of_keeps hremote g) (fun queued g _ => ?_) fun _ _ _ => trivial
    cases queued with
    | true => trivial
    | false => exact timeOut_works ha
  next => exact timeOut_works ha

theorem awaitingTaskAction_works (ha : queue.Acts) {c : StageActionContext} :
    Works svc (Row queue now) (awaitingTaskAction svc c) (.busy c.message.id) := by
  unfold Works awaitingTaskAction
  split
  next =>
    unfold failPermanently
    rw [wp_bind, wp_bind]
    refine wp_mono (works_aside (c := .dateNow) (J := (· = .busy c.message.id)) trivial _ rfl) ?_
      fun _ _ _ => trivial
    rintro timestamp g rfl
    rw [wp_bind]
    refine wp_mono (emit_works fun x hx => ?_) ?_ fun _ _ _ => trivial
    · rw [← Option.some.inj hx]
      exact .inl (.inl rfl)
    · rintro _ g rfl
      have hpurge : Works svc (Row queue now) (purge (expiredMessage c.message timestamp) c.plugin)
          (.busy c.message.id) := purge_works (.inl (.inl rfl))
      exact wp_mono hpurge (fun _ _ _ => trivial) fun _ _ _ => trivial
  next =>
    split
    next => trivial
    next =>
      split
      next => trivial
      next =>
        unfold pollTask
        rw [wp_bind]
        refine wp_mono (works_of_keeps (works_aside (c := .fetchStatus _ _) trivial) _)
          (fun answer g _ => ?_) fun _ _ _ => trivial
        cases answer with
        | error e => trivial
        | ok event =>
          cases event with
          | none => trivial
          | some event => exact processEvent_works (takes_acts ha)

theorem retryAction_works {c : StageActionContext} :
    Works svc (Row queue now) (retryAction c) g := by
  unfold Works retryAction requeue
  rw [wp_bind, wp_bind]
  unfold redis
  rw [wp_bind, wp_command]
  refine ⟨nofun, fun r g' _ => ?_⟩
  cases r with
  | error e => trivial
  | ok moved =>
    cases moved with
    | false => trivial
    | true =>
      exact works_of_keeps (keeps_bind (works_redis_aside (c := .saddDistribute _) trivial)
        fun _ => keeps_pure _) g'

/-- How a row stands to a member it has loaded and that has an owner. -/
structure TakenUp (queue : StageQueue) (id : MessageId) (g : Work) : Prop where
  ns : queue.stage = .ns → g = .loaded id ∨ g = .busy id
  acts : queue.Acts → g = .busy id

theorem stageActions_works {c : StageActionContext} (hg : TakenUp queue c.message.id g) :
    ActionWorks svc queue now c.message.id (stageActions svc queue.stage c) g := by
  by_cases hns : queue.stage = .ns
  · have hloaded := hg.ns hns
    change ActionWorks svc queue now c.message.id (stageActions svc queue.stage c) g
    rw [hns]
    exact nsAction_works hns hloaded
  · have hother : ∀ {p : Engine StageOutcome}, Works svc (Row queue now) p g →
        ActionWorks svc queue now c.message.id p g := fun hp =>
      wp_mono hp (fun _ _ _ he => absurd he hns) fun _ _ _ => trivial
    refine hother ?_
    by_cases hretry : queue.stage = .retry
    · rw [hretry]
      exact retryAction_works
    · have ha : queue.Acts := ⟨hretry, hns⟩
      cases hs : queue.stage with
      | ns => exact absurd hs hns
      | relayNode => exact relayNodeAction_works ha
      | device => exact timeOut_works ha
      | awaitingTask =>
        rw [hg.acts ha]
        exact awaitingTaskAction_works ha
      | retry => exact absurd hs hretry

end Drain

end DeviceMessaging
