import DeviceMessaging.Runner

namespace DeviceMessaging

open Effect

variable (svc : Service)

/-- The members whose pipelined `EXISTS` says no; one that fails says nothing. -/
def deadMembers (members : List MessageId) : Engine (List MessageId) :=
  match members with
  | [] => pure []
  | id :: rest => do
    let live ← tryCatch (redis (.existsMessage id)) fun _ => pure true
    let dead ← deadMembers rest
    return if live then dead else id :: dead

def validateAndCleanConcurrencyRateLimit (key : AdmissionNode) : Engine Nat := do
  let members ← redis (.smembersRateLimit key)
  let dead ← deadMembers members
  if dead = [] then return members.length
  else
    redis (.sremRateLimit key dead)
    return members.length - dead.length

/-- Whether a queue may yield a message under its plugin's admission strategy. -/
def canAdmit (plugin : DeliveryPlugin) (queueKey : QueueKey) : Engine Bool :=
  match plugin.admission with
  | .spacing minIntervalMs => redis (.lockQueueForTimeMs queueKey minIntervalMs)
  | .concurrency maxInFlight =>
    match buildConcurrencyRateLimitKey queueKey with
    | none => pure false
    | some key => do
      let tracked ← redis (.getConcurrencyRateLimitCount key)
      if maxInFlight ≤ tracked then
        let liveCount ← validateAndCleanConcurrencyRateLimit key
        return liveCount < maxInFlight
      else return true

def concurrencyRateLimit (plugin : DeliveryPlugin) (queueKey : QueueKey) :
    Option ConcurrencyRateLimit :=
  match plugin.admission with
  | .spacing _ => none
  | .concurrency maxInFlight => some ⟨buildConcurrencyRateLimitKey queueKey, maxInFlight⟩

/-- A message on its first attempt; `NaN` counts as one. -/
def isFirstAttempt (message : DeviceMessage) : Bool :=
  message.retryCount = some 0 ∨ message.retryCount = none

def emitFirstSend (message : DeviceMessage) : Engine Unit :=
  if isFirstAttempt message then emitDeliveryEvent svc message.toPartial else pure ()

/-- Admit, pick into `ns`, notify, and hand the send off. -/
def distributeWith (plugin : DeliveryPlugin) (queueKey : QueueKey) : Engine Unit := do
  let admitted ← canAdmit plugin queueKey
  if admitted then
    let messageToSend ← pickIntoNs svc queueKey plugin (concurrencyRateLimit plugin queueKey)
    match messageToSend with
    | none => return ()
    | some messageToSend =>
      emitFirstSend svc messageToSend
      Prog.command (Cmd.trackSend plugin.id messageToSend)
  else return ()

/-- One ready queue of a distribute pass. -/
def distributeQueue (queueKey : QueueKey) : Engine Unit :=
  match (getPluginIdFromInitialQueueKey queueKey).bind svc.registry.delivery with
  | none => pure ()
  | some plugin => distributeWith svc plugin queueKey

/-- `distributeToNetworkServers`: the queues with work are processed concurrently. -/
def distributeToNetworkServers : Engine Unit := do
  let activeQueues ← redis .fetchQueuesWithMessages
  spawnAll (activeQueues.map .distributeQueue)

/-- What follows the vendor's answer to a send. -/
def afterSendOne (plugin : DeliveryPlugin) (message : DeviceMessage)
    (answer : Except VendorError String) : Engine Unit :=
  match answer with
  | .error err => do
    let _ ← retryOrFail svc message.id .ns (plugin.parseError err) plugin
    return ()
  | .ok deliveryQueueId =>
    if deliveryQueueId = "" then do
      let _ ← retryOrFail svc message.id .ns
        { reason := "Plugin returned an empty deliveryQueueId after sendOne"
          skipRetry := true } plugin
      return ()
    else do
      let _ ← advance svc message.id plugin .ns (some deliveryQueueId) message.retryCount
      return ()

def sendOneToNetworkServer (plugin : DeliveryPlugin) (message : DeviceMessage) :
    Engine Unit := do
  Prog.command (Cmd.sendOne plugin.id message)
  let answer ← Prog.command (Cmd.sendOneResult plugin.id message)
  afterSendOne svc plugin message answer

/-- The tracked promise: the send, then its release from the in-flight set. -/
def trackedSend (plugin : DeliveryPlugin) (message : DeviceMessage) (token : Nat) :
    Engine Unit := do
  tryCatch (sendOneToNetworkServer svc plugin message) fun _ => pure ()
  Prog.command (Cmd.settleSend message.id token)

/-- What is left of a tracked send once the vendor has answered. -/
def settleSend (plugin : DeliveryPlugin) (message : DeviceMessage) (token : Nat)
    (answer : Except VendorError String) : Engine Unit := do
  tryCatch (afterSendOne svc plugin message answer) fun _ => pure ()
  Prog.command (Cmd.settleSend message.id token)

def unknownPlugin (pluginId : PluginId) : String :=
  "Unknown or disabled pluginId: " ++ pluginId

def unsupportedCommandType (pluginId : PluginId) (commandType : CommandType) : String :=
  "Plugin " ++ pluginId ++ " does not support commandType: " ++ commandType.text

def invalidEnqueue (pluginId : PluginId) (detail : String) : String :=
  "Plugin " ++ pluginId ++ ": " ++ detail

/-- `supportedCommandTypes.includes` of what is no plugin. -/
def notIncluding : String :=
  "Cannot read properties of undefined (reading 'includes')"

/-- Store a new message, unless its plugin refuses it. -/
def enqueue (create : CreateDeviceMessage) : Engine MessageId :=
  match svc.registry.get create.pluginId with
  | none => throw (unknownPlugin create.pluginId)
  | some .inherited => throw notIncluding
  | some (.plugin (.tokenOnly _)) =>
    throw (unsupportedCommandType create.pluginId create.commandType)
  | some (.plugin (.delivery plugin)) =>
    if create.commandType ∉ plugin.supportedCommandTypes then
      throw (unsupportedCommandType create.pluginId create.commandType)
    else
      match plugin.validateEnqueue create with
      | some issue => throw (invalidEnqueue create.pluginId issue)
      | none => redis (.enqueueDeviceMessage create
          (plugin.initialQueueKey (create.networkId.map fun n => some n) create.device))

/-- The queue a cancellable message is claimed from. -/
def cancelQueue (plugin : DeliveryPlugin) (message : DeviceMessage) : QueueKey :=
  if message.deliveryStatus = some .TO_RETRY then .retry
  else plugin.initialQueueKey message.networkId message.device

/-- `_cancelOneMessage`: claim the message from its queue, then purge it. -/
def cancelOneMessage (message : DeviceMessage) : Engine Bool :=
  if message.deliveryStatus ≠ some .QUEUED ∧ message.deliveryStatus ≠ some .TO_RETRY then
    pure false
  else
    match owner svc message with
    | none => pure false
    | some plugin => do
      let claimed ← claimFromQueue (cancelQueue plugin message) message.id
      if claimed then
        purge message plugin
        return true
      else return false

def correlationIndexKeys (correlationId : String) : List String :=
  (none :: phases.map some).map (indexCorrelationId correlationId)

/-- One result of the pipeline: an index value that names a message, with its hash. -/
def readIndexed (id : MessageId) (raw : Option MessageHash) : Engine (Option DeviceMessage) :=
  match messageIdFromKey (some id) with
  | none => pure none
  | some messageId => readHash messageId raw

/-- The pipelined `HGETALL`s behind the index values; a key that fails or holds
nothing is skipped. -/
def loadIndexed (keys : List (Option MessageId)) : Engine (List DeviceMessage) :=
  match keys with
  | [] => pure []
  | none :: rest => loadIndexed rest
  | some id :: rest => do
    let raw ← tryCatch (redis (.hgetall id)) fun _ => pure none
    let loaded ← readIndexed id raw
    let messages ← loadIndexed rest
    return loaded.toList ++ messages

def getAllMessagesForCorrelationId (correlationId : String) : Engine (List DeviceMessage) := do
  let keys ← redis (.mgetCorrelationIndexes (correlationIndexKeys correlationId))
  loadIndexed keys

inductive CancelResult
  | CANCELLED | NOT_CANCELLABLE | NOT_FOUND
  deriving DecidableEq

def cancelMessages (messages : List DeviceMessage) : Engine (List Bool) :=
  match messages with
  | [] => pure []
  | message :: rest => do
    let cancelled ← cancelOneMessage svc message
    let others ← cancelMessages rest
    return cancelled :: others

/-- `_cancelOneByCorrelationId`, its messages taken one after the other. -/
def cancelOne (correlationId : String) : Engine CancelResult := do
  let messages ← getAllMessagesForCorrelationId correlationId
  match messages with
  | [] => return .NOT_FOUND
  | _ =>
    let outcomes ← cancelMessages svc messages
    return if outcomes.all id then .CANCELLED else .NOT_CANCELLABLE

/-- The same up to its `Promise.all`: every message is then cancelled on its own. -/
def cancelConcurrently (correlationId : String) : Engine Unit := do
  let messages ← getAllMessagesForCorrelationId correlationId
  spawnAll (messages.map .cancelMessage)

end DeviceMessaging
