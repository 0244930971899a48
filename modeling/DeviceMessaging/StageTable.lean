import DeviceMessaging.Commands

namespace DeviceMessaging

structure StageEntryContext where
  tuning : PluginTuning
  delivery : DeliveryConfig
  retryCount : ParsedInt

structure StageRescheduleContext where
  message : DeviceMessage
  messageAgeMs : Int
  tuning : PluginTuning
  delivery : DeliveryConfig

/-- A row of the stage table. A wait of `none` is `NaN`. -/
structure StageDefinition where
  name : StageName
  key : PluginId → QueueKey
  entryStatus : DeliveryStatus
  entryWaitMs : StageEntryContext → Engine (Option ℚ)
  rescheduleWaitMs : Option (StageRescheduleContext → Nat) := none
  isPerPlugin : Bool

/-- `Math.pow(retryBackoffMultiplier, retryCount)`. -/
def backoffPower (delivery : DeliveryConfig) (retryCount : Int) : ℚ :=
  match retryCount with
  | .ofNat n => delivery.retryBackoffMultiplier ^ n
  | .negSucc n => 1 / delivery.retryBackoffMultiplier ^ (n + 1)

def cappedDelay (delivery : DeliveryConfig) (retryCount : Int) : ℚ :=
  min (delivery.retryBaseDelayMs * backoffPower delivery retryCount) delivery.retryMaxDelayMs

/-- Exponential backoff, capped, plus up to half of it at random. -/
def calculateBackoffDelay (retryCount : ParsedInt) (delivery : DeliveryConfig) :
    Engine (Option ℚ) := do
  let random ← mathRandom
  return retryCount.map fun n =>
    cappedDelay delivery n + (random * (cappedDelay delivery n * (1 / 2))).floor

def defaultPollLadderMs (messageAgeMs : Int) : Nat :=
  if messageAgeMs < 20000 then 10000
  else if messageAgeMs < 50000 then 15000
  else if messageAgeMs < 90000 then 20000
  else 30000

/-- 48 hours. -/
def pullMaxMessageAgeMs : Int :=
  48 * 60 * 60 * 1000

/-- `STAGES`. -/
def stages (name : StageName) : StageDefinition :=
  match name with
  | .ns => {
      name := .ns
      key := fun _ => .ns
      entryStatus := .SENT_TO_NS
      entryWaitMs := fun c => pure (some c.tuning.nsInFlightTimeoutMs)
      isPerPlugin := false }
  | .relayNode => {
      name := .relayNode
      key := fun _ => .relayNode
      entryStatus := .DELIVERED_TO_NS
      entryWaitMs := fun c => pure (some c.tuning.relayNodeInFlightTimeoutMs)
      isPerPlugin := false }
  | .device => {
      name := .device
      key := fun _ => .device
      entryStatus := .SENT_TO_DEVICE
      entryWaitMs := fun c => pure (some c.tuning.deviceInFlightTimeoutMs)
      isPerPlugin := false }
  | .awaitingTask => {
      name := .awaitingTask
      key := .awaitingTask
      entryStatus := .DELIVERED_TO_NS
      entryWaitMs := fun c => pure (some c.tuning.initialPollDelayMs)
      rescheduleWaitMs := some fun c => defaultPollLadderMs c.messageAgeMs
      isPerPlugin := true }
  | .retry => {
      name := .retry
      key := fun _ => .retry
      entryStatus := .TO_RETRY
      entryWaitMs := fun c => calculateBackoffDelay c.retryCount c.delivery
      isPerPlugin := false }

/-- `Object.values(STAGES)`. -/
def allStages : List StageName :=
  [.ns, .relayNode, .device, .awaitingTask, .retry]

def pipelines (pattern : DeliveryPattern) : List StageName :=
  match pattern with
  | .PUSH => [.ns, .relayNode, .device]
  | .PULL => [.ns, .awaitingTask]

def nextStage (pattern : DeliveryPattern) (current : StageName) : Option StageName :=
  match (pipelines pattern).findIdx? (· = current) with
  | none => none
  | some index => (pipelines pattern)[index + 1]?

def stageForStatus (status : DeliveryStatus) (pattern : DeliveryPattern) : Option StageName :=
  match status with
  | .SENT_TO_NS => some .ns
  | .DELIVERED_TO_NS => if pattern = .PUSH then some .relayNode else some .awaitingTask
  | .SENT_TO_DEVICE => some .device
  | .TO_RETRY => some .retry
  | .QUEUED | .DELIVERY_SUCCESSFUL | .DELIVERY_FAILED => none

def stageKeyFor (stage : StageName) (pluginId : PluginId) : QueueKey :=
  (stages stage).key pluginId

/-- The row's own reschedule wait, or its entry wait. -/
def rescheduleWaitMsFor (stage : StageName) (context : StageRescheduleContext) :
    Engine (Option ℚ) :=
  match (stages stage).rescheduleWaitMs with
  | some wait => pure (some (wait context))
  | none => (stages stage).entryWaitMs {
      tuning := context.tuning
      delivery := context.delivery
      retryCount := context.message.retryCount }

def enumerateStageQueues (pluginIds : List PluginId) : List StageQueue :=
  allStages.flatMap fun stage =>
    if (stages stage).isPerPlugin then pluginIds.map fun id => ⟨stage, (stages stage).key id⟩
    else [⟨stage, (stages stage).key ""⟩]

def enumerateStageKeys (pluginIds : List PluginId) : List QueueKey :=
  (enumerateStageQueues pluginIds).map StageQueue.key

/-- The score of something due a wait from now. -/
def dueAfter (now : Nat) (wait : Option ℚ) : Option ℚ :=
  wait.map fun ms => now + ms

end DeviceMessaging
