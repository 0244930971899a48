import DeviceMessaging.MessageTypes

namespace DeviceMessaging

inductive StageName
  | ns | relayNode | device | awaitingTask | retry
  deriving DecidableEq

def StageName.text (name : StageName) : String :=
  match name with
  | ns => "ns"
  | relayNode => "relayNode"
  | device => "device"
  | awaitingTask => "awaitingTask"
  | retry => "retry"

/-- The sorted sets a message can be a member of. `ready` stands for
`queue:{pluginId}:{kind}:{id}`; its segments hold no `:`, so the node is the key. -/
inductive QueueKey
  | ready (node : AdmissionNode)
  | ns
  | relayNode
  | device
  | awaitingTask (pluginId : PluginId)
  | retry
  deriving DecidableEq

def buildInitialQueueKey (pluginId : PluginId) (kind id : String) : QueueKey :=
  .ready ⟨pluginId, kind, id⟩

def parseInitialQueueKey (queueKey : QueueKey) : Option AdmissionNode :=
  match queueKey with
  | .ready node => if node.pluginId = "" then none else some node
  | _ => none

def getPluginIdFromInitialQueueKey (queueKey : QueueKey) : Option PluginId :=
  (parseInitialQueueKey queueKey).map AdmissionNode.pluginId

/-- Only a ready queue carries a plugin id. -/
theorem ready_of_pluginId {q : QueueKey} {id : PluginId}
    (h : getPluginIdFromInitialQueueKey q = some id) : ∃ node, q = .ready node ∧ node.pluginId = id := by
  obtain ⟨node, hn, hid⟩ := Option.map_eq_some_iff.mp h
  unfold parseInitialQueueKey at hn
  split at hn
  next =>
    split at hn
    next => cases hn
    next => exact ⟨node, by rw [Option.some.inj hn], hid⟩
  next => cases hn

/-- `rate_limit:{pluginId}:{kind}:{id}`, named by its node. -/
def buildConcurrencyRateLimitKey (queueKey : QueueKey) : Option AdmissionNode :=
  parseInitialQueueKey queueKey

def phaseSuffix (phase : Option Phase) : String :=
  match phase with
  | none => ""
  | some .A => "_phA"
  | some .B => "_phB"
  | some .C => "_phC"

/-- `idx:correlation_id:{…}` without its fixed prefix. -/
def indexCorrelationId (correlationId : String) (phase : Option Phase) : String :=
  correlationId ++ phaseSuffix phase

/-- Index values are `device_message:{id}` keys; a key without an id names no
message. -/
def messageIdFromKey (key : Option MessageId) : Option MessageId :=
  key.filter (· ≠ "")

theorem messageIdFromKey_some {key : Option MessageId} {id : MessageId}
    (h : messageIdFromKey key = some id) : key = some id :=
  (Option.filter_eq_some_iff.mp h).1

end DeviceMessaging
