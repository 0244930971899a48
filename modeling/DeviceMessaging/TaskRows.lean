import DeviceMessaging.CalmMoves

namespace DeviceMessaging

open Effect
open Effect.Prog (wp_mono wp_bind wp_pure wp_command wp_tryCatch)

/-- The task of a message's current attempt: when it entered `awaitingTask`, under which
vendor id, and whether the vendor was asked about it since. -/
structure WaitingTask where
  enteredAtMs : Nat
  deliveryQueueId : String
  polled : Bool
  deriving DecidableEq

/-- A member as a row loads it, with the task it has at that time. -/
structure Load where
  id : MessageId
  task : Option WaitingTask
  atMs : Nat
  deriving DecidableEq

/-- How far the `awaitingTask` row is: between two members, with a member whose vendor it
has not asked yet, or with one whose vendor it has. -/
inductive RowPhase
  | between
  | unasked (load : Load)
  | asked

/-- The commands that a member is left with: it waits again, is scrubbed, is cleaned up or
moves on. -/
def Cmd.endsMember (c : Cmd) : Bool :=
  match c with
  | .redis (.zaddXx _ _ _) => true
  | .redis (.removeMessageFromQueue _ _) => true
  | .redis (.messageFullCleanup _ _) => true
  | .redis (.enterRetry _) => true
  | .redis (.moveMessageBetweenQueues _) => true
  | _ => false

/-- The commands that give a message up: its failure is reported, or it is cleaned up. -/
def Cmd.givesUp (c : Cmd) : Bool :=
  match c with
  | .redis (.webhookEnqueue record _) => record.event.message.deliveryStatus = .DELIVERY_FAILED
  | .redis (.messageFullCleanup _ _) => true
  | _ => false

/-- Where a command takes the row, by what is known of the tasks at that time. -/
def RowPhase.after (tasks : MessageId → Option WaitingTask) (clock : Nat) (phase : RowPhase)
    (c : Cmd) : RowPhase :=
  if c.endsMember then .between
  else
    match phase, c with
    | .between, .redis (.hgetall id) => .unasked ⟨id, tasks id, clock⟩
    | _, .fetchStatus _ _ => .asked
    | phase, _ => phase

/-- By its ULID a message is 48 hours old at a tick. -/
def Overaged (svc : Service) (now : Nat) (id : MessageId) : Prop :=
  ∃ time ∈ svc.decodeTime id, pullMaxMessageAgeMs ≤ (now : Int) - time

instance (svc : Service) (now : Nat) (id : MessageId) : Decidable (Overaged svc now id) :=
  inferInstanceAs (Decidable (∃ time ∈ svc.decodeTime id, pullMaxMessageAgeMs ≤ (now : Int) - time))

/-- Rows that give a message up without asking only past the age cap. -/
def rowWatch (svc : Service) (now : Nat) : Monitor Cmd Reply RowPhase where
  allows phase c := c.givesUp = true → ∀ load, phase = .unasked load → Overaged svc now load.id
  next phase c _ phase' := ∃ tasks clock, phase' = phase.after tasks clock c

variable {svc : Service} {now : Nat} {plugin : DeliveryPlugin} {phase : RowPhase} {α : Type}

/-- The part of a row's program that runs from `phase` and returns in `Q`. -/
abbrev InRow (svc : Service) (now : Nat) (p : Engine α) (Q : α → RowPhase → Prop)
    (phase : RowPhase) : Prop :=
  p.wp (rowWatch svc now) Q (fun _ _ => True) phase

/-- A command that leaves the row where it is. -/
def Cmd.Idle (c : Cmd) : Prop :=
  c.endsMember = false ∧ (∀ id, c ≠ .redis (.hgetall id)) ∧ ∀ p m, c ≠ .fetchStatus p m

theorem after_idle {c : Cmd} (hc : c.Idle) (tasks : MessageId → Option WaitingTask) (clock : Nat)
    (phase : RowPhase) : phase.after tasks clock c = phase := by
  obtain ⟨hends, hload, hask⟩ := hc
  unfold RowPhase.after
  rw [hends, if_neg Bool.false_ne_true]
  split
  next id => exact absurd rfl (hload id)
  next p m => exact absurd rfl (hask p m)
  next => rfl

theorem row_idle {c : Cmd} {Q : Reply c → RowPhase → Prop} (hc : c.Idle)
    (hallow : (rowWatch svc now).allows phase c) (hQ : ∀ r, Q r phase) :
    InRow svc now (Prog.command c) Q phase := by
  refine ⟨hallow, ?_⟩
  rintro r phase' ⟨tasks, clock, rfl⟩
  rw [after_idle hc]
  exact hQ r

theorem row_ends {c : Cmd} {Q : Reply c → RowPhase → Prop} (hc : c.endsMember = true)
    (hallow : (rowWatch svc now).allows phase c) (hQ : ∀ r, Q r .between) :
    InRow svc now (Prog.command c) Q phase := by
  refine ⟨hallow, ?_⟩
  rintro r phase' ⟨tasks, clock, rfl⟩
  have hafter : phase.after tasks clock c = .between := if_pos hc
  rw [hafter]
  exact hQ r

theorem row_dateNow {Q : Nat → RowPhase → Prop} (hQ : ∀ t, Q t phase) :
    InRow svc now dateNow Q phase :=
  row_idle ⟨rfl, fun _ => nofun, fun _ _ => nofun⟩ nofun hQ

theorem row_redis {c : RedisCmd} {Q : c.Value → RowPhase → Prop} {phase' : RowPhase}
    (h : InRow svc now (Prog.command (Cmd.redis c)) (fun _ p => p = phase') phase)
    (hQ : ∀ v, Q v phase') : InRow svc now (redis c) Q phase := by
  unfold redis
  rw [InRow, wp_bind]
  refine wp_mono h (fun r p hp => ?_) fun _ _ h => h
  subst hp
  cases r with
  | ok v => exact hQ v
  | error e => trivial

/-- A Redis command that tells or writes nothing a row is watched for. -/
theorem redis_idle {c : RedisCmd} {Q : c.Value → RowPhase → Prop} (hc : (Cmd.redis c).Idle)
    (hallow : (rowWatch svc now).allows phase (.redis c)) (hQ : ∀ v, Q v phase) :
    InRow svc now (redis c) Q phase :=
  row_redis (row_idle hc hallow fun _ => rfl) hQ

theorem redis_ends {c : RedisCmd} {Q : c.Value → RowPhase → Prop}
    (hc : (Cmd.redis c).endsMember = true) (hallow : (rowWatch svc now).allows phase (.redis c))
    (hQ : ∀ v, Q v .between) : InRow svc now (redis c) Q phase :=
  row_redis (row_ends hc hallow fun _ => rfl) hQ

theorem row_readPicked {raw : Option (MessageId × MessageHash)}
    {Q : Option DeviceMessage → RowPhase → Prop} (hQ : ∀ m, Q m phase) :
    InRow svc now (readPicked raw) Q phase := by
  unfold readPicked
  split
  next => exact hQ none
  next =>
    split
    next m _ => exact hQ (some m)
    next => trivial

/-- What is loaded between two members is the next member. -/
theorem row_load {id : MessageId} {Q : Option DeviceMessage → RowPhase → Prop}
    (hQ : ∀ m load, load.id = id → Q m (.unasked load)) :
    InRow svc now (getMessageById id) Q .between := by
  unfold getMessageById redis
  rw [InRow, wp_bind, wp_bind, wp_command]
  refine ⟨nofun, ?_⟩
  rintro r phase' ⟨tasks, clock, rfl⟩
  cases r with
  | error e => trivial
  | ok raw => exact row_readPicked fun m => hQ m ⟨id, tasks id, clock⟩ rfl

/-- What is loaded while the row is at a member is read for that member. -/
theorem row_getMessageById {id : MessageId} {Q : Option DeviceMessage → RowPhase → Prop}
    (hQ : ∀ m, Q m .asked) : InRow svc now (getMessageById id) Q .asked := by
  unfold getMessageById
  rw [InRow, wp_bind]
  have hload : InRow svc now (Prog.command (Cmd.redis (.hgetall id))) (fun _ p => p = .asked)
      .asked := by
    refine ⟨nofun, ?_⟩
    rintro r phase' ⟨tasks, clock, rfl⟩
    rfl
  exact row_redis hload fun raw => row_readPicked hQ

theorem row_emit {message : PartialMessage} {Q : Unit → RowPhase → Prop}
    (hallow : message.deliveryStatus = some .DELIVERY_FAILED →
      ∀ load, phase = .unasked load → Overaged svc now load.id)
    (hQ : Q () phase) : InRow svc now (emitDeliveryEvent svc message) Q phase := by
  unfold emitDeliveryEvent
  split
  next =>
    unfold storeAndEmit
    rw [InRow, wp_bind]
    refine row_dateNow fun occurredAt => ?_
    rw [wp_bind]
    refine row_idle (c := .ulid) ⟨rfl, fun _ => nofun, fun _ _ => nofun⟩ nofun fun eventId => ?_
    cases hevent : buildWebhookEvent message occurredAt eventId with
    | error e => exact hQ
    | ok event =>
      dsimp only
      rw [wp_bind]
      refine row_dateNow fun t => redis_idle ⟨rfl, fun _ => nofun, fun _ _ => nofun⟩ ?_ fun _ => hQ
      intro hgives
      have hfailed : event.message.deliveryStatus = .DELIVERY_FAILED := of_decide_eq_true hgives
      refine hallow ?_
      rw [← hfailed]
      exact (buildWebhookEvent_id hevent).2
  next => exact hQ

theorem row_purge {message : DeviceMessage} {Q : Unit → RowPhase → Prop}
    (hallow : ∀ load, phase = .unasked load → Overaged svc now load.id) (hQ : Q () .between) :
    InRow svc now (purge message plugin) Q phase :=
  redis_ends rfl (fun _ => hallow) fun _ => hQ

theorem row_entryWait {name : StageName} {c : StageEntryContext} {Q : Option ℚ → RowPhase → Prop}
    (hQ : ∀ wait, Q wait phase) : InRow svc now ((stages name).entryWaitMs c) Q phase := by
  cases name with
  | retry =>
    refine (wp_bind _ _).mpr ?_
    exact row_idle (c := .mathRandom) ⟨rfl, fun _ => nofun, fun _ _ => nofun⟩ nofun fun _ => hQ _
  | _ => exact hQ _

/-- An outcome after which the runner has nothing left to do for the member. -/
def Settles (outcome : StageOutcome) (phase : RowPhase) : Prop :=
  outcome = .removed ∨ outcome = .movedOn → phase = .between

theorem row_retryOrFail (messageId : MessageId) (queueKey : QueueKey) (c : FailureContext) :
    InRow svc now (retryOrFail svc messageId queueKey c plugin) Settles .asked := by
  unfold retryOrFail
  rw [InRow, wp_bind]
  refine row_getMessageById fun message => ?_
  cases message with
  | none => exact nofun
  | some message =>
    dsimp only
    rw [wp_bind]
    refine row_dateNow fun timestamp => ?_
    split
    next =>
      rw [wp_bind]
      refine row_emit (fun _ => nofun) ?_
      rw [wp_bind]
      exact row_purge nofun fun _ => rfl
    next =>
      unfold enterRetry
      rw [wp_bind, wp_bind]
      refine redis_idle ⟨rfl, fun _ => nofun, fun _ _ => nofun⟩ nofun fun inQueue => ?_
      cases inQueue with
      | none => exact nofun
      | some score =>
        dsimp only
        rw [wp_bind]
        refine row_dateNow fun t => ?_
        rw [wp_bind]
        refine row_entryWait fun wait => ?_
        rw [wp_bind]
        refine redis_idle ⟨rfl, fun _ => nofun, fun _ _ => nofun⟩ nofun fun fields => ?_
        rw [wp_bind]
        exact redis_ends rfl nofun fun _ _ => rfl

theorem row_advance {messageId : MessageId} {fromStage : StageName} {x : Option String}
    {n : ParsedInt} : InRow svc now (advance svc messageId plugin fromStage x n)
      (fun _ p => p = .between) .asked := by
  unfold advance
  split
  next => trivial
  next =>
    rw [InRow, wp_bind]
    refine row_dateNow fun t => ?_
    rw [wp_bind]
    refine row_entryWait fun wait => ?_
    exact redis_ends rfl nofun fun _ => rfl

theorem row_processIndexed (messageId : MessageId) (e : ParsedIncomingEvent) :
    InRow svc now (processIndexed svc messageId e plugin) Settles .asked := by
  unfold processIndexed
  split
  next =>
    rw [InRow, wp_bind]
    refine wp_mono row_advance (fun _ p hp => ?_) fun _ _ h => h
    exact fun _ => hp
  next =>
    split
    next =>
      unfold processFailure
      rw [InRow, wp_bind]
      refine row_getMessageById fun message => ?_
      cases message with
      | none => exact nofun
      | some message =>
        dsimp only
        split
        next => trivial
        next =>
          split
          next => exact nofun
          next => exact row_retryOrFail _ _ _
    next =>
      split
      next => exact nofun
      next =>
        unfold processSuccess
        rw [InRow, wp_bind]
        refine row_getMessageById fun message => ?_
        cases message with
        | none => exact nofun
        | some message =>
          dsimp only
          rw [wp_bind]
          refine row_dateNow fun timestamp => ?_
          rw [wp_bind]
          refine row_emit (fun _ => nofun) ?_
          rw [wp_bind]
          exact row_purge nofun fun _ => rfl

theorem row_processEvent (e : ParsedIncomingEvent) :
    InRow svc now (processEvent svc e plugin) Settles .asked := by
  unfold processEvent
  split
  next =>
    rw [InRow, wp_bind]
    exact row_emit (fun _ => nofun) nofun
  next =>
    split
    next => exact nofun
    next x _ =>
      unfold getMessageIdFromDeliveryQueueId
      rw [InRow, wp_bind, wp_bind]
      refine redis_idle ⟨rfl, fun _ => nofun, fun _ _ => nofun⟩ nofun fun key => ?_
      rw [wp_pure]
      cases messageIdFromKey key with
      | none => exact nofun
      | some id => exact row_processIndexed id e

/-- The row gives a member up without asking its vendor only past the age cap. -/
theorem row_awaitingTask {load : Load} {c : StageActionContext}
    (hage : ∃ time, svc.decodeTime load.id = some time ∧ c.messageAgeMs = (now : Int) - time) :
    InRow svc now (awaitingTaskAction svc c) Settles (.unasked load) := by
  obtain ⟨time, htime, heq⟩ := hage
  unfold awaitingTaskAction
  split
  next hcap =>
    have hover : ∀ load', RowPhase.unasked load = .unasked load' → Overaged svc now load'.id := by
      intro load' he
      cases he
      exact ⟨time, htime, heq ▸ hcap⟩
    unfold failPermanently
    rw [InRow, wp_bind, wp_bind]
    refine row_dateNow fun timestamp => ?_
    rw [wp_bind]
    refine row_emit (fun _ => hover) ?_
    exact row_purge hover fun _ => rfl
  next =>
    split
    next => exact nofun
    next =>
      split
      next => exact nofun
      next =>
        unfold pollTask
        rw [InRow, wp_bind, wp_command]
        refine ⟨nofun, ?_⟩
        rintro answer phase' ⟨tasks, clock, rfl⟩
        change InRow svc now _ _ .asked
        rw [InRow, wp_bind]
        cases answer with
        | error e => trivial
        | ok event =>
          cases event with
          | none => exact nofun
          | some event => exact row_processEvent event

/-- Whatever the outcome, the member is left behind. -/
theorem row_followUp {queue : StageQueue} {id : MessageId} {message : DeviceMessage} {age : Int}
    {outcome : StageOutcome} (h : Settles outcome phase) :
    InRow svc now (followUp svc queue id message age plugin outcome) (fun _ p => p = .between)
      phase := by
  cases outcome with
  | orphaned =>
    refine (wp_bind _ _).mpr ?_
    exact redis_ends rfl nofun fun _ => rfl
  | rescheduled =>
    refine (wp_bind _ _).mpr ?_
    have hwait : ∀ {Q : Option ℚ → RowPhase → Prop} {c : StageRescheduleContext},
        (∀ wait, Q wait phase) → InRow svc now (rescheduleWaitMsFor queue.stage c) Q phase := by
      intro Q c hQ
      unfold rescheduleWaitMsFor
      split
      next => exact hQ _
      next => exact row_entryWait hQ
    refine hwait fun wait => ?_
    rw [wp_bind]
    refine row_dateNow fun t => ?_
    exact redis_ends rfl nofun fun _ => rfl
  | movedOn => exact h (.inr rfl)
  | removed => exact h (.inl rfl)

theorem row_drainMember {queue : StageQueue} (hq : queue.stage = .awaitingTask) (id : MessageId) :
    InRow svc now (drainMember svc queue now id) (fun _ p => p = .between) .between := by
  unfold drainMember
  rw [InRow, wp_bind]
  have hscrub : ∀ phase, InRow svc now (do
      let _ ← redis (.removeMessageFromQueue queue.key id)
      return () : Engine Unit) (fun _ p => p = .between) phase := by
    intro phase
    rw [InRow, wp_bind]
    exact redis_ends rfl nofun fun _ => rfl
  refine row_load fun message load hid => ?_
  cases message with
  | none => exact hscrub _
  | some message =>
    dsimp only
    split
    next => exact hscrub _
    next plugin _ =>
      rw [wp_bind]
      unfold decodeTime
      split
      next time htime =>
        rw [wp_pure, wp_bind, hq]
        unfold act
        rw [wp_tryCatch]
        have hage : ∃ t, svc.decodeTime load.id = some t ∧ (now : Int) - time = (now : Int) - t :=
          ⟨time, hid ▸ htime, rfl⟩
        refine wp_mono (row_awaitingTask hage) (fun outcome p hp => row_followUp hp) ?_
        exact fun _ p _ => row_followUp nofun
      next => trivial

theorem row_drainMembers {queue : StageQueue} (hq : queue.stage = .awaitingTask)
    (ids : List MessageId) :
    InRow svc now (drainMembers svc queue now ids) (fun _ _ => True) .between := by
  induction ids with
  | nil => trivial
  | cons id ids ih =>
    refine (wp_bind _ _).mpr ?_
    refine wp_mono (row_drainMember hq id) ?_ fun _ _ h => h
    rintro u p rfl
    exact ih

theorem row_drainRow {queue : StageQueue} (hq : queue.stage = .awaitingTask) :
    InRow svc now (drainRow svc queue now) (fun _ _ => True) .between := by
  unfold drainRow
  rw [InRow, wp_bind]
  refine row_idle ⟨rfl, fun _ => nofun, fun _ _ => nofun⟩ nofun fun began => ?_
  cases began with
  | false => trivial
  | true =>
    have hend : ∀ p, InRow svc now (Prog.command (Cmd.endDrain queue.key) : Engine Unit)
        (fun _ _ => True) p :=
      fun p => row_idle ⟨rfl, fun _ => nofun, fun _ _ => nofun⟩ nofun fun _ => trivial
    have hdrain : InRow svc now (drain svc queue now) (fun _ _ => True) .between := by
      unfold drain
      rw [InRow, wp_bind]
      refine redis_idle ⟨rfl, fun _ => nofun, fun _ _ => nofun⟩ nofun fun ids => ?_
      exact row_drainMembers hq ids
    change InRow svc now (tryCatch (drain svc queue now) (fun _ => pure ()) >>= _) _ _
    rw [InRow, wp_bind, wp_tryCatch]
    exact wp_mono hdrain (fun _ p _ => hend p) fun _ p _ => hend p

end DeviceMessaging
