import DeviceMessaging.Actions

namespace DeviceMessaging

open Effect

variable (svc : Service)

/-- Run a row's action; a throw leaves the member waiting. -/
def act (name : StageName) (c : StageActionContext) : Engine StageOutcome :=
  tryCatch (stageActions svc name c) fun _ => pure .rescheduled

/-- What the runner owes a member after its action. -/
def followUp (queue : StageQueue) (messageId : MessageId) (message : DeviceMessage)
    (messageAgeMs : Int) (plugin : DeliveryPlugin) (outcome : StageOutcome) : Engine Unit :=
  match outcome with
  | .orphaned => do
    let _ ← redis (.removeMessageFromQueue queue.key messageId)
    return ()
  | .rescheduled => reschedule svc queue.stage message messageAgeMs plugin
  | .movedOn | .removed => pure ()

def decodeTime (messageId : MessageId) : Engine Nat :=
  match svc.decodeTime messageId with
  | some time => pure time
  | none => throw "Invalid ULID"

/-- The owning plugin of a loaded member, when it is a delivery plugin. -/
def owner (message : DeviceMessage) : Option DeliveryPlugin :=
  message.pluginId.bind svc.registry.delivery

/-- One due member: load it, act, follow up. -/
def drainMember (queue : StageQueue) (now : Nat) (messageId : MessageId) : Engine Unit := do
  let message ← getMessageById messageId
  match message with
  | none =>
    let _ ← redis (.removeMessageFromQueue queue.key messageId)
    return ()
  | some message =>
    match owner svc message with
    | none =>
      let _ ← redis (.removeMessageFromQueue queue.key messageId)
      return ()
    | some plugin =>
      let time ← decodeTime svc messageId
      let messageAgeMs := (now : Int) - time
      let outcome ← act svc queue.stage ⟨queue.key, message, plugin, messageAgeMs⟩
      followUp svc queue messageId message messageAgeMs plugin outcome

def drainMembers (queue : StageQueue) (now : Nat) (dueIds : List MessageId) : Engine Unit :=
  match dueIds with
  | [] => pure ()
  | messageId :: rest => do
    drainMember svc queue now messageId
    drainMembers queue now rest

/-- `_drain`: the members of one stage queue that are due at `now`. -/
def drain (queue : StageQueue) (now : Nat) : Engine Unit := do
  let dueIds ← redis (.getExpiredMessagesInQueue queue.key now)
  drainMembers svc queue now dueIds

/-- One row of a tick, under its re-entry guard. -/
def drainRow (queue : StageQueue) (now : Nat) : Engine Unit := do
  let began ← Prog.command (Cmd.beginDrain queue.key)
  if began then
    tryCatch (drain svc queue now) fun _ => pure ()
    Prog.command (Cmd.endDrain queue.key)
  else return ()

def spawnAll (tasks : List Task) : Engine Unit :=
  match tasks with
  | [] => pure ()
  | task :: rest => do
    Prog.command (Cmd.spawn task)
    spawnAll rest

def pullPluginIds : List PluginId :=
  (svc.registry.getByDeliveryPattern .PULL).map DeliveryPlugin.id

/-- Drive every stage queue once; the rows run concurrently. -/
def tick : Engine Unit := do
  let now ← dateNow
  spawnAll ((enumerateStageQueues (pullPluginIds svc)).map fun queue => .drain queue now)

end DeviceMessaging
