import DeviceMessaging.CalmStep
import DeviceMessaging.ProperRuns

namespace DeviceMessaging

open Effect

variable (svc : Service)

/-- What the plugin name of a message stands for, inherited names included. -/
def namedOwner (message : DeviceMessage) : Option Resolved :=
  message.pluginId.bind svc.registry.get

/-! An inherited value has no field of a plugin: its pattern, id, noun and tuning are `undefined`,
and it has no `initialQueueKey`. -/

/-- The `TypeError` of `plugin.initialQueueKey(..)`. -/
def notAFunction : String :=
  "plugin.initialQueueKey is not a function"

/-- The `TypeError` of a read off `tuning`. -/
def noTuning (field : String) : String :=
  "Cannot read properties of undefined (reading '" ++ field ++ "')"

/-- `enterRetry` reads nothing of the plugin it is given. -/
def enterRetryInherited (messageId : MessageId) (fromKey : QueueKey) (currentRetryCount : ParsedInt)
    (failureHistory : List FailureReason) : Engine Bool := do
  let inQueue ← redis (.zscore fromKey messageId)
  match inQueue with
  | none => return false
  | some _ =>
    let now ← dateNow
    let wait ← calculateBackoffDelay currentRetryCount svc.delivery
    let fields ← redis (.hmget messageId)
    redis (.enterRetry {
      messageId := messageId
      fromKey := fromKey
      dueAt := dueAfter now wait
      retryCount := succRetryCount currentRetryCount
      failureHistory := failureHistory
      staleDeliveryQueueId := truthy fields.1
      concurrencyRateLimitKey := fields.2 })
    return true

/-- `retryOrFail`; the `purge` of a final failure throws before its cleanup. -/
def retryOrFailInherited (messageId : MessageId) (currentQueueKey : QueueKey)
    (failureContext : FailureContext) : Engine StageOutcome := do
  let message ← getMessageById messageId
  match message with
  | none => return .orphaned
  | some message =>
    let isFinal := isFinalFailure svc failureContext message.retryCount
    let timestamp ← dateNow
    let history := failureEntry failureContext message.deliveryStatus timestamp isFinal ::
      message.failureHistory
    if isFinal then
      emitDeliveryEvent svc { message.toPartial with
        failureHistory := some history
        deliveryStatus := some .DELIVERY_FAILED }
      throw notAFunction
    else
      let entered ← enterRetryInherited svc messageId currentQueueKey message.retryCount history
      return if entered then .movedOn else .orphaned

/-- The stage actions; no pattern is PUSH or PULL. -/
def actionInherited (queue : StageQueue) (message : DeviceMessage) (messageAgeMs : Int) :
    Engine StageOutcome :=
  match queue.stage with
  | .ns => do
    let held ← Prog.command (Cmd.hasInFlightSend message.id)
    if held then return .rescheduled
    else retryOrFailInherited svc message.id .ns { reason := timeoutReason .ns none }
  | .relayNode =>
    retryOrFailInherited svc message.id queue.key { reason := timeoutReason .relayNode none }
  | .device =>
    retryOrFailInherited svc message.id queue.key { reason := timeoutReason .device none }
  | .awaitingTask =>
    if pullMaxMessageAgeMs ≤ messageAgeMs then do
      let timestamp ← dateNow
      emitDeliveryEvent svc (expiredMessage message timestamp).toPartial
      throw notAFunction
    else pure .rescheduled
  | .retry => throw notAFunction

def rescheduleInherited (stage : StageName) (message : DeviceMessage) (messageAgeMs : Int) :
    Engine Unit :=
  match stage with
  | .ns => throw (noTuning "nsInFlightTimeoutMs")
  | .relayNode => throw (noTuning "relayNodeInFlightTimeoutMs")
  | .device => throw (noTuning "deviceInFlightTimeoutMs")
  | .awaitingTask => do
    let now ← dateNow
    redis (.zaddXx (.awaitingTask "undefined")
      (dueAfter now (some (defaultPollLadderMs messageAgeMs))) message.id)
  | .retry => do
    let wait ← calculateBackoffDelay message.retryCount svc.delivery
    let now ← dateNow
    redis (.zaddXx .retry (dueAfter now wait) message.id)

/-- What the runner owes such a member after its action. -/
def followUpInherited (queue : StageQueue) (messageId : MessageId) (message : DeviceMessage)
    (messageAgeMs : Int) (outcome : StageOutcome) : Engine Unit :=
  match outcome with
  | .orphaned => do
    let _ ← redis (.removeMessageFromQueue queue.key messageId)
    return ()
  | .rescheduled => rescheduleInherited svc queue.stage message messageAgeMs
  | .movedOn | .removed => pure ()

/-- The turn of a member whose plugin name is inherited. -/
def drainInherited (queue : StageQueue) (now : Nat) (messageId : MessageId)
    (message : DeviceMessage) : Engine Unit := do
  let time ← decodeTime svc messageId
  let messageAgeMs := (now : Int) - time
  let outcome ← tryCatch (actionInherited svc queue message messageAgeMs) fun _ => pure .rescheduled
  followUpInherited svc queue messageId message messageAgeMs outcome

/-- One due member of the loop, whatever its hash holds. -/
def drainMemberByName (queue : StageQueue) (now : Nat) (messageId : MessageId) : Engine Unit := do
  let message ← getMessageById messageId
  match message with
  | none =>
    let _ ← redis (.removeMessageFromQueue queue.key messageId)
    return ()
  | some message =>
    match namedOwner svc message with
    | some (.plugin (.delivery plugin)) =>
      let time ← decodeTime svc messageId
      let messageAgeMs := (now : Int) - time
      let outcome ← act svc queue.stage ⟨queue.key, message, plugin, messageAgeMs⟩
      followUp svc queue messageId message messageAgeMs plugin outcome
    | some .inherited => drainInherited svc queue now messageId message
    | some (.plugin (.tokenOnly _)) | none =>
      let _ ← redis (.removeMessageFromQueue queue.key messageId)
      return ()

def drainMembersByName (queue : StageQueue) (now : Nat) (dueIds : List MessageId) : Engine Unit :=
  match dueIds with
  | [] => pure ()
  | messageId :: rest => do
    drainMemberByName svc queue now messageId
    drainMembersByName queue now rest

/-- `_drain`, with the owners as `registry.get` resolves them. -/
def drainByName (queue : StageQueue) (now : Nat) : Engine Unit := do
  let dueIds ← redis (.getExpiredMessagesInQueue queue.key now)
  drainMembersByName svc queue now dueIds

variable {svc} {plugin : DeliveryPlugin} {message : DeviceMessage}

/-- The owner of a message is the delivery plugin that its name stands for. -/
theorem owner_eq_some : owner svc message = some plugin ↔
    namedOwner svc message = some (.plugin (.delivery plugin)) := by
  unfold owner namedOwner
  cases message.pluginId with
  | none => simp
  | some id =>
    simp only [Option.bind_some]
    unfold PluginRegistry.delivery PluginRegistry.get
    cases svc.registry.own id with
    | none =>
      dsimp only
      split <;> simp
    | some p => cases p <;> simp

section Runs

variable {weather : Weather} {ok : Process → Choice Handler Oracle Disturbance → Prop} {x : Process}
  {id : MessageId}

/-- Every request of a run was made to a delivery plugin. -/
theorem reached_registered (hx : Reached svc weather ok x) :
    ∀ e ∈ x.world.store.enqueued, (svc.registry.delivery e.2.pluginId).isSome := by
  have hall : Commissioned svc x ∧ ∀ e ∈ x.world.store.enqueued,
      (svc.registry.delivery e.2.pluginId).isSome := by
    refine hx.invariant (I := fun x => Commissioned svc x ∧ ∀ e ∈ x.world.store.enqueued,
      (svc.registry.delivery e.2.pluginId).isSome) ⟨commissioned_initial,
        fun e he => absurd he List.not_mem_nil⟩ ?_
    rintro x y a ⟨hc, hs⟩ - hy
    refine ⟨hc.next hy, fun e he => ?_⟩
    rcases store_next hy with he' | ⟨i, o, h, c, rfl, hw, -, he'⟩ | ⟨d, -, he'⟩ <;> rw [he'] at he
    · exact hs e he
    · cases c with
      | enqueueDeviceMessage dto q =>
        rcases List.mem_append.mp he with he | he
        · exact hs e he
        · cases List.mem_singleton.mp he
          have hhome : dto.home svc = some q := hc.proper hw
          obtain ⟨plugin, hp, -⟩ := Option.map_eq_some_iff.mp hhome
          exact Option.isSome_iff_exists.mpr ⟨plugin, hp⟩
      | _ => exact hs e he
    · cases d <;> exact hs e he
  exact hall.2

/-- What a load returns was stored so. -/
theorem getMessageById_runs {polls : PollRule} {w w' : World} {loaded : Option DeviceMessage}
    (hr : (getMessageById id).Runs (calmExec polls) w (.ok loaded) w') :
    ∀ message, loaded = some message → ∃ hash, w.store.redis.messages id = some hash ∧
      deserializeMessage id hash = .ok message := by
  have hwp : (getMessageById id).wp (calm polls) (fun loaded _ => ∀ message, loaded = some message →
      ∃ hash, w.store.redis.messages id = some hash ∧ deserializeMessage id hash = .ok message)
      (fun _ _ => True) w := by
    unfold getMessageById readHash
    rw [Prog.wp_bind, wp_hgetall]
    cases hh : w.store.redis.messages id with
    | none => exact fun _ he => nomatch he
    | some hash =>
      simp only [Option.map_some, readPicked]
      cases hm : deserializeMessage id hash with
      | error e => trivial
      | ok message =>
        intro message' he
        cases he
        exact ⟨hash, rfl, hm⟩
  exact Prog.wp_runs hwp hr

/-- In a run no stored message names an inherited value, so the engine's turn of a member is
this one. -/
theorem reached_turns_alike (hx : Reached svc weather ok x) (queue : StageQueue) (now : Nat)
    (id : MessageId) {polls : PollRule} {r : Except String Unit} {w' : World} :
    (drainMember svc queue now id).Runs (calmExec polls) x.world r w' ↔
      (drainMemberByName svc queue now id).Runs (calmExec polls) x.world r w' := by
  unfold drainMember drainMemberByName
  refine Prog.runs_bind_congr fun loaded w₁ hload => ?_
  cases loaded with
  | none => rfl
  | some message =>
    obtain ⟨hash, hh, hm⟩ := getMessageById_runs hload message rfl
    obtain ⟨create, hcreate, hname⟩ := (reached_commissioned hx).provenance.requested hh hm
    obtain ⟨plugin, hp⟩ := Option.isSome_iff_exists.mp (reached_registered hx _ hcreate)
    have howner : owner svc message = some plugin := by
      unfold owner
      rw [hname]
      exact hp
    dsimp only
    rw [howner, owner_eq_some.mp howner]

end Runs

end DeviceMessaging
