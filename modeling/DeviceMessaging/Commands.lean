import DeviceMessaging.EffectPool
import DeviceMessaging.RedisScripts

namespace DeviceMessaging

open Effect

/-- One Redis command, Lua script or MULTI block: an atomic step on the keyspace. -/
inductive RedisCmd
  | enqueueDeviceMessage (dto : CreateDeviceMessage) (queueKey : QueueKey)
  | hgetall (id : MessageId)
  | getExternalIndex (deliveryQueueId : String)
  | mgetCorrelationIndexes (keys : List String)
  | moveMessageBetweenQueues (args : MoveArgs)
  | fetchNextMessageInQueueAndMove (args : FetchArgs)
  | getExpiredMessagesInQueue (queueKey : QueueKey) (cutoffDate : Nat)
  | removeMessageFromQueue (queueKey : QueueKey) (id : MessageId)
  | zscore (queueKey : QueueKey) (id : MessageId)
  | hmget (id : MessageId)
  | enterRetry (args : EnterRetryMulti)
  | zaddXx (queueKey : QueueKey) (score : Option ℚ) (id : MessageId)
  | saddDistribute (queueKey : QueueKey)
  | fetchQueuesWithMessages
  | messageFullCleanup (message : DeviceMessage) (queueKeys : List QueueKey)
  | lockQueueForTimeMs (queueKey : QueueKey) (durationMs : Nat)
  | getConcurrencyRateLimitCount (key : AdmissionNode)
  | smembersRateLimit (key : AdmissionNode)
  | existsMessage (id : MessageId)
  | sremRateLimit (key : AdmissionNode) (ids : List MessageId)
  | webhookEnqueue (record : WebhookStoredRecord) (nextAttemptAtMs : Nat)

@[reducible] def RedisCmd.Value (c : RedisCmd) : Type :=
  match c with
  | enqueueDeviceMessage .. => MessageId
  | hgetall .. => Option MessageHash
  | getExternalIndex .. => Option MessageId
  | mgetCorrelationIndexes .. => List (Option MessageId)
  | moveMessageBetweenQueues .. => Bool
  | fetchNextMessageInQueueAndMove .. => Option (MessageId × MessageHash)
  | getExpiredMessagesInQueue .. => List MessageId
  | removeMessageFromQueue .. => Bool
  | zscore .. => Option ℚ
  | hmget .. => Option String × Option AdmissionNode
  | enterRetry .. => Unit
  | zaddXx .. => Unit
  | saddDistribute .. => Unit
  | fetchQueuesWithMessages => List QueueKey
  | messageFullCleanup .. => Unit
  | lockQueueForTimeMs .. => Bool
  | getConcurrencyRateLimitCount .. => Nat
  | smembersRateLimit .. => List MessageId
  | existsMessage .. => Bool
  | sremRateLimit .. => Unit
  | webhookEnqueue .. => Unit

/-- `QUEUE_SCAN_BATCH_SIZE`. -/
def queueScanBatchSize : Nat :=
  50

/-- A stage of the table with one concrete queue. -/
structure StageQueue where
  stage : StageName
  key : QueueKey
  deriving DecidableEq

/-- Work a handler hands off without awaiting it: the rows of a tick, the queues
of a distribute pass, a send, the messages of a cancel. -/
inductive Task
  | drain (queue : StageQueue) (now : Nat)
  | distributeQueue (queueKey : QueueKey)
  | send (pluginId : PluginId) (message : DeviceMessage) (token : Nat)
  | cancelMessage (message : DeviceMessage)
  deriving DecidableEq

inductive Cmd
  | redis (c : RedisCmd)
  | dateNow
  | mathRandom
  | ulid
  | hasInFlightSend (id : MessageId)
  | trackSend (pluginId : PluginId) (message : DeviceMessage)
  | settleSend (id : MessageId) (token : Nat)
  | beginDrain (queueKey : QueueKey)
  | endDrain (queueKey : QueueKey)
  | spawn (task : Task)
  | sendOne (pluginId : PluginId) (message : DeviceMessage)
  | sendOneResult (pluginId : PluginId) (message : DeviceMessage)
  | fetchStatus (pluginId : PluginId) (message : DeviceMessage)
  | getRemoteStatus (pluginId : PluginId) (message : DeviceMessage)

@[reducible] def Reply (c : Cmd) : Type :=
  match c with
  | .redis c => Except String c.Value
  | .dateNow => Nat
  | .mathRandom => ℚ
  | .ulid => String
  | .hasInFlightSend .. => Bool
  | .trackSend .. => Unit
  | .settleSend .. => Unit
  | .beginDrain .. => Bool
  | .endDrain .. => Unit
  | .spawn .. => Unit
  | .sendOne .. => Unit
  | .sendOneResult .. => Except VendorError String
  | .fetchStatus .. => Except VendorError (Option ParsedIncomingEvent)
  | .getRemoteStatus .. => Except VendorError String

/-- The engine's code: programs over these commands that throw error texts. -/
abbrev Engine :=
  Prog Cmd Reply String

/-- Await a Redis command; a rejected one throws. -/
def redis (c : RedisCmd) : Engine c.Value :=
  (Prog.command (Cmd.redis c) : Engine (Except String c.Value)) >>= fun
    | .ok v => pure v
    | .error e => throw e

def dateNow : Engine Nat :=
  Prog.command Cmd.dateNow

def mathRandom : Engine ℚ :=
  Prog.command Cmd.mathRandom

def ulid : Engine String :=
  Prog.command Cmd.ulid

/-- The keyspace with a record of the past: the ids named by writes so far, the
enqueues that committed, the webhook records that were persisted, and the
messages that were cleaned up. -/
structure Store where
  redis : Redis
  named : List MessageId
  enqueued : List (MessageId × CreateDeviceMessage)
  persisted : List WebhookStoredRecord
  purged : List MessageId

/-- The store and the memory of the process. -/
structure World where
  store : Store
  inFlightSends : MessageId → Option Nat
  nextToken : Nat
  draining : MemberSet QueueKey
  tasks : List Task

/-- A process that has just started over a store. -/
def World.boot (store : Store) : World where
  store := store
  inFlightSends _ := none
  nextToken := 0
  draining := .empty
  tasks := []

def Store.empty : Store where
  redis := .empty
  named := []
  enqueued := []
  persisted := []
  purged := []

/-- How a Redis command can fail: refused without an effect, or executed with
its reply lost. -/
inductive Fault
  | refused | lost
  deriving DecidableEq

/-- What the outside decides about one step. -/
structure Oracle where
  fault : Option Fault := none
  id : String := ""
  now : Nat := 0
  random : ℚ := 0
  sent : Except VendorError String := .ok ""
  polled : Except VendorError (Option ParsedIncomingEvent) := .ok none
  remote : Except VendorError String := .ok ""

/-- The messages a write names, other than by a new id. -/
def RedisCmd.names (c : RedisCmd) : List MessageId :=
  match c with
  | moveMessageBetweenQueues args => [args.messageId]
  | enterRetry args => [args.messageId]
  | messageFullCleanup message _ => [message.id]
  | webhookEnqueue record _ => record.event.message.id.toList
  | _ => []

/-- The effect of a command on the keyspace. The enqueue transaction is executed
under the id `ulid()` drew for it. -/
def RedisCmd.run (c : RedisCmd) (id : MessageId) (r : Redis) : Except String c.Value × Redis :=
  match c with
  | enqueueDeviceMessage dto queueKey => (.ok id, enqueueMulti id dto queueKey r)
  | hgetall id => (.ok (r.messages id), r)
  | getExternalIndex x => (.ok (r.externals x), r)
  | mgetCorrelationIndexes keys => (.ok (keys.map r.correlations), r)
  | moveMessageBetweenQueues args => DeviceMessaging.moveMessageBetweenQueues args r
  | fetchNextMessageInQueueAndMove args => DeviceMessaging.fetchNextMessageInQueueAndMove args r
  | getExpiredMessagesInQueue queueKey cutoffDate =>
    (.ok ((r.queues queueKey).due cutoffDate queueScanBatchSize), r)
  | removeMessageFromQueue queueKey id => (.ok (id ∈ r.queues queueKey), r.zrem queueKey id)
  | zscore queueKey id => (.ok ((r.queues queueKey).score id), r)
  | hmget id =>
    (.ok ((r.messages id).bind (·.deliveryQueueId),
      (r.messages id).bind (·.concurrencyRateLimitKey)), r)
  | enterRetry args => enterRetryMulti args r
  | zaddXx queueKey score id =>
    match score with
    | none => (.error floatError, r)
    | some score => (.ok (), r.setQueue queueKey ((r.queues queueKey).rescore id score))
  | saddDistribute queueKey => (.ok (), r.saddDistribute queueKey)
  | fetchQueuesWithMessages => (.ok r.queuesToDistributeFrom.members, r)
  | messageFullCleanup message queueKeys =>
    (.ok (), DeviceMessaging.messageFullCleanup message queueKeys r)
  | lockQueueForTimeMs queueKey durationMs =>
    let (v, r) := DeviceMessaging.lockQueueForTimeMs queueKey durationMs r
    (.ok v, r)
  | getConcurrencyRateLimitCount key => (.ok (r.rateLimits key).card, r)
  | smembersRateLimit key => (.ok (r.rateLimits key).members, r)
  | existsMessage id => (.ok (r.messages id).isSome, r)
  | sremRateLimit key ids => (.ok (), validateAndClean key ids r)
  | webhookEnqueue record nextAttemptAtMs =>
    (.ok (), webhookEnqueueMulti record nextAttemptAtMs r)

/-- What a command adds to the record of the past. -/
def Store.note (s : Store) (c : RedisCmd) (id : MessageId) : Store :=
  match c with
  | .enqueueDeviceMessage dto _ =>
    { s with named := id :: s.named, enqueued := s.enqueued ++ [(id, dto)] }
  | .webhookEnqueue record _ =>
    { s with named := c.names ++ s.named, persisted := s.persisted ++ [record] }
  | .messageFullCleanup message _ =>
    { s with named := c.names ++ s.named, purged := message.id :: s.purged }
  | c => { s with named := c.names ++ s.named }

/-- A command executed: its value, and the store with its effect and its trace. -/
def Store.exec (s : Store) (c : RedisCmd) (id : MessageId) : Except String c.Value × Store :=
  ((c.run id s.redis).1, { s.note c id with redis := (c.run id s.redis).2 })

/-- The terminal events handed to the webhook store for a message. -/
def Store.outcomes (s : Store) (id : MessageId) : List WebhookStoredRecord :=
  s.persisted.filter fun record => record.terminalOf = some id

/-- Handing over an event is what adds to the outcomes of a message. -/
theorem outcomes_exec (s : Store) (c : RedisCmd) (i id : MessageId) :
    (s.exec c i).2.outcomes id = s.outcomes id ∨
      ∃ record now, c = .webhookEnqueue record now ∧ record.terminalOf = some id ∧
        (s.exec c i).2.outcomes id = s.outcomes id ++ [record] := by
  cases c with
  | webhookEnqueue record now =>
    by_cases hr : record.terminalOf = some id
    · exact .inr ⟨record, now, rfl, hr, by simp [Store.outcomes, Store.exec, Store.note, hr]⟩
    · exact .inl (by simp [Store.outcomes, Store.exec, Store.note, hr])
  | _ => exact .inl rfl

theorem named_exec (s : Store) (c : RedisCmd) (id : MessageId) :
    ∀ x ∈ s.named, x ∈ (s.exec c id).2.named := by
  intro x hx
  cases c <;> simp [Store.exec, Store.note, hx]

/-- The message a command cleans up. -/
def RedisCmd.purges (c : RedisCmd) : Option MessageId :=
  match c with
  | messageFullCleanup message _ => some message.id
  | _ => none

theorem purged_exec {s : Store} {c : RedisCmd} {i x : MessageId}
    (hx : x ∈ (s.exec c i).2.purged) : x ∈ s.purged ∨ c.purges = some x := by
  cases c with
  | messageFullCleanup message qs =>
    rcases List.mem_cons.mp hx with rfl | hx
    · exact .inr rfl
    · exact .inl hx
  | _ => exact .inl hx

/-- The command whose code calls `ulid()` for a message. -/
def RedisCmd.drawsId (c : RedisCmd) : Bool :=
  match c with
  | enqueueDeviceMessage .. => true
  | _ => false

/-- An id drawn for a message is new: no write has named it. -/
def RedisCmd.Fresh (c : RedisCmd) (id : MessageId) (s : Store) : Prop :=
  c.drawsId = true → id ≠ "" ∧ id ∉ s.named

instance (c : RedisCmd) (id : MessageId) (s : Store) : Decidable (c.Fresh id s) :=
  inferInstanceAs (Decidable (c.drawsId = true → id ≠ "" ∧ id ∉ s.named))

def lostReply : String :=
  "Connection is closed."

/-- One Redis command as the process sees it. -/
def execRedis (o : Oracle) (c : RedisCmd) (w : World) : Option (Except String c.Value × World) :=
  if c.Fresh o.id w.store then
    match o.fault with
    | none => some ((w.store.exec c o.id).1, { w with store := (w.store.exec c o.id).2 })
    | some .refused => some (.error lostReply, w)
    | some .lost => some (.error lostReply, { w with store := (w.store.exec c o.id).2 })
  else none

/-- `track`: hold the id under a new promise and let its send run. -/
def World.track (w : World) (pluginId : PluginId) (message : DeviceMessage) : World :=
  { w with
    inFlightSends := Function.update w.inFlightSends message.id (some w.nextToken)
    nextToken := w.nextToken + 1
    tasks := w.tasks ++ [.send pluginId message w.nextToken] }

/-- The `finally` of `track`: let go of the id unless it is held anew. -/
def World.settle (w : World) (id : MessageId) (token : Nat) : World :=
  if w.inFlightSends id = some token then
    { w with inFlightSends := Function.update w.inFlightSends id none }
  else w

/-- One command, executed as a single atomic step. -/
def respond (o : Oracle) (c : Cmd) (w : World) : Option (Reply c × World) :=
  match c with
  | .redis c => execRedis o c w
  | .dateNow => some (o.now, w)
  | .mathRandom => if 0 ≤ o.random ∧ o.random < 1 then some (o.random, w) else none
  | .ulid => some (o.id, w)
  | .hasInFlightSend id => some ((w.inFlightSends id).isSome, w)
  | .trackSend pluginId message => some ((), w.track pluginId message)
  | .settleSend id token => some ((), w.settle id token)
  | .beginDrain queueKey =>
    if queueKey ∈ w.draining then some (false, w)
    else some (true, { w with draining := w.draining.insert queueKey })
  | .endDrain queueKey => some ((), { w with draining := w.draining.remove queueKey })
  | .spawn task => some ((), { w with tasks := w.tasks ++ [task] })
  | .sendOne .. => some ((), w)
  | .sendOneResult .. => some (o.sent, w)
  | .fetchStatus .. => some (o.polled, w)
  | .getRemoteStatus .. => some (o.remote, w)

/-- The outcomes of a Redis command for the handler that issues it. -/
theorem execRedis_cases {o : Oracle} {c : RedisCmd} {w w' : World} {r : Except String c.Value}
    (h : respond o (.redis c) w = some (r, w')) :
    c.Fresh o.id w.store ∧
      ((o.fault = none ∧ r = (w.store.exec c o.id).1 ∧ w'.store = (w.store.exec c o.id).2) ∨
      (o.fault = some .refused ∧ r = .error lostReply ∧ w'.store = w.store) ∨
      (o.fault = some .lost ∧ r = .error lostReply ∧ w'.store = (w.store.exec c o.id).2)) := by
  simp only [respond, execRedis] at h
  split at h
  next hf =>
    refine ⟨hf, ?_⟩
    split at h <;> cases h
    next ho => exact .inl ⟨ho, rfl, rfl⟩
    next ho => exact .inr (.inl ⟨ho, rfl, rfl⟩)
    next ho => exact .inr (.inr ⟨ho, rfl, rfl⟩)
  next => cases h

/-- Without faults a Redis command is executed. -/
theorem respond_calm {o : Oracle} {c : RedisCmd} {w w' : World} {r : Reply (.redis c)}
    (ho : o.fault = none) (h : respond o (.redis c) w = some (r, w')) :
    c.Fresh o.id w.store ∧ r = (w.store.exec c o.id).1 ∧
      w' = { w with store := (w.store.exec c o.id).2 } := by
  simp only [respond, execRedis, ho] at h
  split at h
  next hf =>
    cases h
    exact ⟨hf, rfl, rfl⟩
  next => cases h

end DeviceMessaging
