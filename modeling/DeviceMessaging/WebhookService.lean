import DeviceMessaging.BoundedRetry
import DeviceMessaging.WebhookStore

namespace DeviceMessaging.Webhook

open Effect

/-- `EventWebhookConfig`, with what its schema promises. -/
structure Config where
  url : String
  maxAttempts : Nat := 6
  baseDelayMs : Nat := 2000
  backoffMultiplier : ℚ := 2
  maxDelayMs : Nat := 60000
  requestTimeoutMs : Nat := 10000
  deadLetterTtlSeconds : Nat := 604800
  maxAttempts_pos : 0 < maxAttempts := by decide

/-- `createWebhookService`: the signature of a body is its HMAC under the secret. -/
structure Messenger where
  config : Config
  signingSecret : Option String := none
  signWebhookBody : String → WebhookEvent → String

/-- A POST; the body is the JSON text of the event. -/
structure Request where
  url : String
  headers : List (String × String)
  body : WebhookEvent
  timeoutMs : Nat
  deriving DecidableEq

inductive Cmd
  | store (c : WebhookStoreCmd)
  | dateNow
  | ulid
  | fetch (request : Request)
  | response (request : Request)
  | kick
  | settle

/-- A response is its status; a network error or an abort is the error's message. -/
abbrev Outcome :=
  Except String Nat

@[reducible] def Reply (c : Cmd) : Type :=
  match c with
  | .store c => Except String c.Value
  | .dateNow => Nat
  | .ulid => String
  | .fetch _ => Unit
  | .response _ => Outcome
  | .kick => Unit
  | .settle => Unit

abbrev Code :=
  Prog Cmd Reply String

def store (c : WebhookStoreCmd) : Code c.Value :=
  (Prog.command (Cmd.store c) : Code (Except String c.Value)) >>= fun
    | .ok v => pure v
    | .error e => throw e

def dateNow : Code Nat :=
  Prog.command Cmd.dateNow

def claimLeaseMs : Nat :=
  60000

def isOk (status : Nat) : Bool :=
  decide (200 ≤ status ∧ status < 300)

def isRetryableWebhookStatus (status : Nat) : Bool :=
  decide (status = 408 ∨ status = 429 ∨ 500 ≤ status)

def calculateWebhookBackoffDelay (failedAttemptCount : Nat) (config : Config) : ℚ :=
  let safeCount := max 1 failedAttemptCount
  let delay := config.baseDelayMs * config.backoffMultiplier ^ (safeCount - 1)
  min delay config.maxDelayMs

def formatWebhookSignatureHeader (hexDigest : String) : String :=
  "sha256=" ++ hexDigest

variable (msg : Messenger)

def request (event : WebhookEvent) : Request where
  url := msg.config.url
  headers := [("content-type", "application/json"),
      ("X-Device-Messaging-Event-Id", event.eventId)] ++
    ((truthy msg.signingSecret).map fun secret => ("X-Device-Messaging-Signature",
      formatWebhookSignatureHeader (msg.signWebhookBody secret event))).toList
  body := event
  timeoutMs := msg.config.requestTimeoutMs

/-- The record after one more failed attempt. -/
def failed (record : AttemptedRecord) (lastError : String) : AttemptedRecord :=
  { record with attemptCount := record.attemptCount + 1, lastError := some lastError }

def onFailure (record : AttemptedRecord) (lastError : String) : Code Unit :=
  let updated := failed record lastError
  if updated.attemptCount ≥ msg.config.maxAttempts then
    store (.deadLetter updated msg.config.deadLetterTtlSeconds)
  else do
    let delayMs := calculateWebhookBackoffDelay updated.attemptCount msg.config
    let now ← dateNow
    store (.reschedule updated (now + delayMs))

/-- What the response to a POST leads to. -/
def onResponse (record : AttemptedRecord) (eventId : String) (outcome : Outcome) : Code Unit :=
  match outcome with
  | .error message => onFailure msg record message
  | .ok status =>
    let errorText := "HTTP " ++ toString status
    if isOk status then store (.complete eventId)
    else if isRetryableWebhookStatus status then onFailure msg record errorText
    else store (.deadLetter (failed record errorText) msg.config.deadLetterTtlSeconds)

def deliverOne (eventId : String) : Code Unit := do
  let record ← store (.getRecord eventId)
  match record with
  | none => store (.complete eventId)
  | some record =>
    let now ← dateNow
    store (.reschedule record (now + claimLeaseMs))
    Prog.command (Cmd.fetch (request msg record.event))
    let outcome ← Prog.command (Cmd.response (request msg record.event))
    onResponse msg record eventId outcome

def drainOnce : Code Unit := do
  let now ← dateNow
  let dueIds ← store (.listDueEventIds now)
  dueIds.forM (deliverOne msg)

/-- A link of `drainChain`: a drain whose error is logged. -/
def drainLink : Code Unit := do
  tryCatch (drainOnce msg) fun _ => pure ()
  Prog.command Cmd.settle

/-- `_drainDue`: one more link. -/
def drainDue : Code Unit :=
  Prog.command Cmd.kick

def storeAndEmit (message : PartialMessage) : Code Unit := do
  let occurredAt ← dateNow
  let eventId ← Prog.command Cmd.ulid
  match buildWebhookEvent message occurredAt eventId with
  | .error _ => return ()
  | .ok event =>
    let now ← dateNow
    store (.enqueue { event := event, attemptCount := 0 } now)
    drainDue

inductive Handler
  | storeAndEmit (message : PartialMessage)
  | timer
  | drain (link : Nat)

def handlerProgram (h : Handler) : Code Unit :=
  match h with
  | .storeAndEmit message => storeAndEmit message
  | .timer => drainDue
  | .drain _ => drainLink msg

/-- What has happened to the events, oldest first. -/
inductive Entry
  | accepted (event : WebhookEvent)
  | scheduled (record : AttemptedRecord)
  | posted (request : Request)
  | answered (request : Request) (outcome : Outcome)
  | completed (eventId : String)
  | deadLettered (record : AttemptedRecord)
  | expired (eventId : String)

/-- The keys, with the history of the events; and of `drainChain` the links appended,
started and settled. -/
structure World where
  keys : WebhookKeys
  log : List Entry
  kicked : Nat
  started : Nat
  settled : Nat

def World.boot (keys : WebhookKeys) (log : List Entry) : World where
  keys := keys
  log := log
  kicked := 0
  started := 0
  settled := 0

def World.note (w : World) (e : Entry) : World :=
  { w with log := w.log ++ [e] }

/-- The events accepted so far. -/
def acceptedIn (log : List Entry) : List WebhookEvent :=
  log.filterMap fun
    | .accepted event => some event
    | _ => none

/-- An event is stored under a new id, as `ulid()` draws it. -/
def Fresh (c : WebhookStoreCmd) (log : List Entry) : Prop :=
  match c with
  | .enqueue record _ => record.event.eventId ∉ (acceptedIn log).map (·.eventId)
  | _ => True

instance (c : WebhookStoreCmd) (log : List Entry) : Decidable (Fresh c log) := by
  unfold Fresh
  split <;> infer_instance

def trace (c : WebhookStoreCmd) : List Entry :=
  match c with
  | .enqueue record _ => [.accepted record.event]
  | .reschedule record _ => [.scheduled record]
  | .complete eventId => [.completed eventId]
  | .deadLetter record _ => [.deadLettered record]
  | _ => []

def World.exec (w : World) (c : WebhookStoreCmd) : World :=
  { w with keys := (c.run w.keys).2, log := w.log ++ trace c }

/-- What the outside decides about one step. -/
structure Oracle where
  fault : Option Fault := none
  id : String := ""
  now : Nat := 0
  outcome : Outcome := .ok 200

def execStore (o : Oracle) (c : WebhookStoreCmd) (w : World) :
    Option (Except String c.Value × World) :=
  if Fresh c w.log then
    match o.fault with
    | none => some (.ok (c.run w.keys).1, w.exec c)
    | some .refused => some (.error lostReply, w)
    | some .lost => some (.error lostReply, w.exec c)
  else none

def respond (o : Oracle) (c : Cmd) (w : World) : Option (Reply c × World) :=
  match c with
  | .store c => execStore o c w
  | .dateNow => some (o.now, w)
  | .ulid => some (o.id, w)
  | .fetch request => some ((), w.note (.posted request))
  | .response request => some (o.outcome, w.note (.answered request o.outcome))
  | .kick => some ((), { w with kicked := w.kicked + 1 })
  | .settle => some ((), { w with settled := w.settled + 1 })

/-- A link starts when the one before it has settled. -/
def startHandler (h : Handler) (w : World) : Option World :=
  match h with
  | .drain link =>
    if link = w.started ∧ w.started = w.settled ∧ link < w.kicked then
      some { w with started := w.started + 1 }
    else none
  | _ => some w

/-- A dead letter expires. -/
def expire (eventId : String) (w : World) : World :=
  { w with keys := { w.keys with deadLetter := Function.update w.keys.deadLetter eventId none } }.note
    (.expired eventId)

def service (weather : Weather) : System Cmd Reply String Handler World Oracle String where
  program := handlerProgram msg
  respond o c w := if o.fault.isNone || weather.faults then respond o c w else none
  start := startHandler
  disturb eventId w := if weather.expiry then some (expire eventId w) else none
  crash w := if weather.crashes then some (.boot w.keys w.log) else none

abbrev Process :=
  Effect.Config Cmd Reply String Handler World

def Process.initial : Process where
  threads := []
  world := .boot .empty []

abbrev Reached (weather : Weather) : Process → Prop :=
  (service msg weather).Reachable (fun _ _ => True) Process.initial

theorem exists_reached (msg : Messenger) (weather : Weather)
    (as : List (Choice Handler Oracle String)) (p : Process → Bool)
    (h : ((service msg weather).follow (fun _ _ => true) as Process.initial).any p = true) :
    ∃ x, Reached msg weather x ∧ p x = true :=
  System.exists_reachable (fun _ _ => true) as p (fun _ _ _ => trivial) h

end DeviceMessaging.Webhook
