import DeviceMessaging.MessageTypes

namespace DeviceMessaging

/-- The text of a hash field: one that reads back as a value, or one that its
reader cannot make sense of. -/
inductive FieldText (α : Type)
  | text (a : α)
  | unreadable
  deriving DecidableEq

namespace FieldText

variable {α : Type}

/-- `JSON.parse`, which throws on a text that is not JSON. -/
def parseJson (t : FieldText α) : Except String α :=
  match t with
  | .text a => .ok a
  | .unreadable => .error "SyntaxError"

/-- A number field, `NaN` when unreadable. -/
def parseNumber (t : FieldText α) : Option α :=
  match t with
  | .text a => some a
  | .unreadable => none

end FieldText

/-- The fields of `device_message:{id}`. -/
structure MessageHash where
  commandType : Option CommandType := none
  priority : Option (FieldText JsNumber) := none
  pluginId : Option PluginId := none
  device : Option (FieldText Device) := none
  networkId : Option (FieldText Int) := none
  correlationId : Option String := none
  requestData : Option (FieldText RequestData) := none
  phase : Option Phase := none
  deliveryQueueId : Option String := none
  deliveryStatus : Option DeliveryStatus := none
  retryCount : Option (FieldText Int) := none
  failureHistory : Option (FieldText (List FailureReason)) := none
  concurrencyRateLimitKey : Option AdmissionNode := none
  deriving DecidableEq

/-- `HSET` of several fields: those given are written, the others stay. -/
def MessageHash.write (h fields : MessageHash) : MessageHash where
  commandType := fields.commandType <|> h.commandType
  priority := fields.priority <|> h.priority
  pluginId := fields.pluginId <|> h.pluginId
  device := fields.device <|> h.device
  networkId := fields.networkId <|> h.networkId
  correlationId := fields.correlationId <|> h.correlationId
  requestData := fields.requestData <|> h.requestData
  phase := fields.phase <|> h.phase
  deliveryQueueId := fields.deliveryQueueId <|> h.deliveryQueueId
  deliveryStatus := fields.deliveryStatus <|> h.deliveryStatus
  retryCount := fields.retryCount <|> h.retryCount
  failureHistory := fields.failureHistory <|> h.failureHistory
  concurrencyRateLimitKey := fields.concurrencyRateLimitKey <|> h.concurrencyRateLimitKey

@[simp] theorem MessageHash.write_empty (fields : MessageHash) :
    MessageHash.write {} fields = fields := by
  simp [MessageHash.write]

def serializeCreateDeviceMessage (dto : CreateDeviceMessage) : MessageHash where
  commandType := some dto.commandType
  priority := some (.text dto.priority)
  pluginId := some dto.pluginId
  device := some (.text dto.device)
  networkId := dto.networkId.map fun n => .text n
  correlationId := dto.correlationId
  requestData := dto.requestData.map .text
  phase := dto.phase
  deliveryStatus := some .QUEUED

/-- A field text that JavaScript reads as false when it is empty. -/
def truthy (s : Option String) : Option String :=
  s.filter (· ≠ "")

theorem truthy_some {s : String} (h : s ≠ "") : truthy (some s) = some s := by
  simp [truthy, Option.filter, h]

/-- The optional JSON fields: absent, or parsed. -/
def parseOptionalJson {α : Type} (t : Option (FieldText α)) : Except String (Option α) :=
  match t with
  | none => .ok none
  | some t => t.parseJson.map some

def parseDevice (id : MessageId) (t : Option (FieldText Device)) : Except String Device :=
  match t with
  | none => .error ("[REDIS] Message without device payload (messageId=" ++ id ++ ")")
  | some t => t.parseJson

def deserializeMessage (id : MessageId) (raw : MessageHash) : Except String DeviceMessage := do
  let device ← parseDevice id raw.device
  let requestData ← parseOptionalJson raw.requestData
  let failureHistory ← parseOptionalJson raw.failureHistory
  return {
    id := id
    commandType := raw.commandType
    pluginId := raw.pluginId
    priority := raw.priority.bind fun t => t.parseNumber.map JsNumber.parseInt
    device := device
    networkId := raw.networkId.map FieldText.parseNumber
    correlationId := truthy raw.correlationId
    requestData := requestData
    phase := raw.phase
    deliveryQueueId := raw.deliveryQueueId.getD ""
    deliveryStatus := raw.deliveryStatus
    retryCount := (raw.retryCount.getD (.text 0)).parseNumber
    failureHistory := failureHistory.getD []
    concurrencyRateLimitKey := raw.concurrencyRateLimitKey }

/-- The hash reads back as a message. -/
def MessageHash.Decodes (raw : MessageHash) : Prop :=
  (∃ d, raw.device = some (.text d)) ∧ raw.requestData ≠ some .unreadable ∧
    raw.failureHistory ≠ some .unreadable

theorem parseOptionalJson_ok {α : Type} {t : Option (FieldText α)} (h : t ≠ some .unreadable) :
    ∃ a, parseOptionalJson t = .ok a := by
  cases t with
  | none => exact ⟨none, rfl⟩
  | some t =>
    cases t with
    | text a => exact ⟨some a, rfl⟩
    | unreadable => exact absurd rfl h

theorem parseDevice_eq_ok (id : MessageId) {t : Option (FieldText Device)} {d : Device} :
    parseDevice id t = .ok d ↔ t = some (.text d) := by
  cases t with
  | none => simp [parseDevice]
  | some t => cases t <;> simp [parseDevice, FieldText.parseJson]

theorem deserializeMessage_ok {raw : MessageHash} (id : MessageId) (h : raw.Decodes) :
    ∃ m, deserializeMessage id raw = .ok m := by
  obtain ⟨⟨d, hd⟩, hr, hf⟩ := h
  obtain ⟨r, hr⟩ := parseOptionalJson_ok hr
  obtain ⟨f, hf⟩ := parseOptionalJson_ok hf
  have hd := (parseDevice_eq_ok id).mpr hd
  simp only [deserializeMessage, hd, hr, hf]
  exact ⟨_, rfl⟩

theorem except_bind_ok {ε α β : Type} {x : Except ε α} {f : α → Except ε β} {b : β}
    (h : (x >>= f) = .ok b) : ∃ a, x = .ok a ∧ f a = .ok b := by
  cases x with
  | error e => cases h
  | ok a => exact ⟨a, rfl, h⟩

/-- What a successful load says about the hash it read. -/
theorem deserializeMessage_fields {id : MessageId} {raw : MessageHash} {m : DeviceMessage}
    (h : deserializeMessage id raw = .ok m) :
    raw.device = some (.text m.device) ∧ m.id = id ∧ m.pluginId = raw.pluginId ∧
      m.deliveryStatus = raw.deliveryStatus ∧
      m.deliveryQueueId = raw.deliveryQueueId.getD "" ∧
      m.correlationId = truthy raw.correlationId ∧ m.phase = raw.phase ∧
      m.networkId = raw.networkId.map FieldText.parseNumber ∧
      m.retryCount = (raw.retryCount.getD (.text 0)).parseNumber ∧
      m.priority = raw.priority.bind (fun t => t.parseNumber.map JsNumber.parseInt) ∧
      m.concurrencyRateLimitKey = raw.concurrencyRateLimitKey := by
  obtain ⟨d, hd, h⟩ := except_bind_ok h
  obtain ⟨r, -, h⟩ := except_bind_ok h
  obtain ⟨f, -, h⟩ := except_bind_ok h
  cases Except.ok.inj h
  exact ⟨(parseDevice_eq_ok id).mp hd, rfl, rfl, rfl, rfl, rfl, rfl, rfl, rfl, rfl, rfl⟩

theorem deserializeMessage_history {id : MessageId} {raw : MessageHash} {m : DeviceMessage}
    (h : deserializeMessage id raw = .ok m) :
    raw.failureHistory.getD (.text []) = .text m.failureHistory := by
  obtain ⟨d, -, h⟩ := except_bind_ok h
  obtain ⟨r, -, h⟩ := except_bind_ok h
  obtain ⟨f, hf, h⟩ := except_bind_ok h
  cases Except.ok.inj h
  cases ht : raw.failureHistory with
  | none =>
    rw [ht] at hf
    cases hf
    rfl
  | some t =>
    rw [ht] at hf
    cases t with
    | text l =>
      cases hf
      rfl
    | unreadable => cases hf

/-- The fields of a hash that nothing writes after the enqueue. -/
def MessageHash.immutable (h : MessageHash) : MessageHash :=
  { h with
    deliveryQueueId := none
    deliveryStatus := none
    retryCount := none
    failureHistory := none
    concurrencyRateLimitKey := none }

/-- The hash holds every field its enqueue wrote, each with the value written
then, up to the status that later stages overwrite. -/
structure MessageHash.HoldsCreate (h : MessageHash) (dto : CreateDeviceMessage) : Prop where
  fields : h.immutable = (serializeCreateDeviceMessage dto).immutable
  status : h.deliveryStatus ≠ none
  history : h.failureHistory ≠ some .unreadable

theorem MessageHash.HoldsCreate.decodes {h : MessageHash} {dto : CreateDeviceMessage}
    (hc : h.HoldsCreate dto) : h.Decodes := by
  have hd := congrArg MessageHash.device hc.fields
  have hr := congrArg MessageHash.requestData hc.fields
  simp only [immutable, serializeCreateDeviceMessage] at hd hr
  refine ⟨⟨dto.device, hd⟩, ?_, hc.history⟩
  rw [hr]
  cases dto.requestData <;> simp

theorem MessageHash.HoldsCreate.evolve {h h' : MessageHash} {dto : CreateDeviceMessage}
    (hc : h.HoldsCreate dto) (hi : h'.immutable = h.immutable)
    (hs : h'.deliveryStatus = h.deliveryStatus ∨ h'.deliveryStatus ≠ none)
    (hf : h'.failureHistory = h.failureHistory ∨ h'.failureHistory ≠ some .unreadable) :
    h'.HoldsCreate dto where
  fields := hi.trans hc.fields
  status := hs.elim (fun e => e ▸ hc.status) id
  history := hf.elim (fun e => e ▸ hc.history) id

theorem holdsCreate_serialize (dto : CreateDeviceMessage) :
    (serializeCreateDeviceMessage dto).HoldsCreate dto where
  fields := rfl
  status := by simp [serializeCreateDeviceMessage]
  history := by simp [serializeCreateDeviceMessage]

end DeviceMessaging
