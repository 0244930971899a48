import DeviceMessaging.CalinWire
import DeviceMessaging.ChirpstackCredit
import DeviceMessaging.PlainPrograms

namespace DeviceMessaging

open Effect

namespace Chirpstack

section Outgoing

def payloadOf (payload : RequestPayload) : Calin.Payload :=
  match payload with
  | .date year month day => .date ⟨year, month, day⟩
  | .time hour minute second => .time ⟨hour, minute, second.map fun n : Nat => (n : ℚ)⟩

def toEncode (requestType : CommandType) (message : DeviceMessage) : Calin.ToEncode where
  deviceIdentifier := message.device.externalReference
  devicePhase := message.phase.getD .A
  requestType := requestType
  token := message.requestData.bind RequestData.token
  payload := (message.requestData.bind RequestData.payload).map payloadOf

/-- What the client is asked to enqueue for a device. -/
structure DeviceRequest where
  deviceEui : List Char
  bytes : List Nat
  deriving DecidableEq

def encodeFailed : VendorError where
  message := "Could not encode request data prior to sending to device"
  skipRetry := true
  isOwn := true

/-- `externalReference.padStart(16, '0')`. -/
def deviceEuiOf (externalReference : List Char) : List Char :=
  List.replicate (16 - textLength externalReference) '0' ++ externalReference

/-- `sendOne` up to its call of the client. -/
def sendOne (message : DeviceMessage) : Except VendorError DeviceRequest :=
  match message.commandType.bind fun c => Calin.encodeRequestData (toEncode c message) with
  | none => .error encodeFailed
  | some bytes => .ok ⟨deviceEuiOf message.device.externalReference.toList, bytes⟩

end Outgoing

section Digits

theorem codeUnits_basic {text : List Char} (h : ∀ c ∈ text, c.toNat < 65536) :
    codeUnits text = text.map Char.toNat := by
  unfold codeUnits
  induction text with
  | nil => rfl
  | cons c text ih =>
    have hc := h c List.mem_cons_self
    rw [List.flatMap_cons, if_pos hc, ih fun d hd => h d (List.mem_cons_of_mem c hd)]
    rfl

theorem textLength_basic {text : List Char} (h : ∀ c ∈ text, c.toNat < 65536) :
    textLength text = text.length := by
  unfold textLength
  rw [codeUnits_basic h, List.length_map]

theorem substring_basic {text : List Char} (h : ∀ c ∈ text, c.toNat < 65536) (start : Nat) :
    substring text start = text.drop start := by
  unfold substring
  rw [codeUnits_basic h, ← List.map_drop, JsonText.joinUnits_chars]

theorem isHexDigit_basic {c : Char} (h : Calin.isHexDigit c = true) : c.toNat < 65536 := by
  simp only [Calin.isHexDigit, Char.isDigit, Bool.or_eq_true, Bool.and_eq_true,
    decide_eq_true_eq] at h
  rcases h with (⟨-, h⟩ | ⟨-, h⟩) | ⟨-, h⟩
  · have h : c.toNat ≤ 57 := h
    omega
  · have h : c.toNat ≤ 102 := h
    omega
  · have h : c.toNat ≤ 70 := h
    omega

theorem hexToBytes_digits {hex : List Char} {bytes : List Nat}
    (h : Calin.hexToBytes hex = some bytes) : ∀ c ∈ hex, Calin.isHexDigit c = true := by
  unfold Calin.hexToBytes at h
  split at h
  next => cases h
  next hc =>
    rw [not_or, not_or, not_not] at hc
    exact List.all_eq_true.mp hc.2.1

/-- A device that a frame is addressed to has up to twelve hexadecimal digits. -/
theorem deviceEuiBytesOf_digits {deviceIdentifier : String} {bytes : List Nat}
    (h : Calin.deviceEuiBytesOf deviceIdentifier = some bytes) :
    (∀ c ∈ deviceIdentifier.toList, Calin.isHexDigit c = true) ∧
      deviceIdentifier.toList.length ≤ 12 := by
  unfold Calin.deviceEuiBytesOf Calin.padStart at h
  obtain ⟨hbytes, hlen⟩ := Option.filter_eq_some_iff.mp h
  have hdigits := hexToBytes_digits hbytes
  have hcount := (Calin.hexToBytes_some hbytes).2
  rw [of_decide_eq_true hlen, List.length_append, List.length_replicate] at hcount
  exact ⟨fun c hc => hdigits c (List.mem_append_right _ hc), by omega⟩

variable {ref : List Char}

theorem deviceEuiOf_basic (h : ∀ c ∈ ref, c.toNat < 65536) :
    ∀ c ∈ deviceEuiOf ref, c.toNat < 65536 := by
  intro c hc
  rcases List.mem_append.mp hc with hc | hc
  · rw [List.eq_of_mem_replicate hc]
    decide
  · exact h c hc

theorem deviceEuiOf_length (h : ∀ c ∈ ref, c.toNat < 65536) (hlen : ref.length ≤ 12) :
    (deviceEuiOf ref).length = 16 := by
  unfold deviceEuiOf
  rw [textLength_basic h, List.length_append, List.length_replicate]
  omega

/-- What is left of a padded reference is the reference just when it has eleven digits. -/
theorem drop_deviceEuiOf (h : ∀ c ∈ ref, c.toNat < 65536) (hlen : ref.length ≤ 12) :
    (deviceEuiOf ref).drop METER_REFERENCE_OFFSET = ref ↔ ref.length = 11 := by
  constructor
  · intro hdrop
    have hl := congrArg List.length hdrop
    rw [List.length_drop, deviceEuiOf_length h hlen] at hl
    exact hl.symm
  · intro hl
    unfold deviceEuiOf
    rw [textLength_basic h, hl]
    rfl

end Digits

section Events

variable {bufferFrom : JsValue → Js (List Calin.Byte)} {run : Run} {i : Nat}
  {e : ParsedIncomingEvent}

/-- The occurrences whose bodies the answer to the `i`th is made of. -/
def MadeOf (bufferFrom : JsValue → Js (List Calin.Byte)) (run : Run) (i : Nat)
    (e : ParsedIncomingEvent) (k : Nat) : Prop :=
  k = i ∨ ∃ j, Combines bufferFrom run i j k e

theorem Occurrence.reference_devEui {o : Occurrence} {event : Body} {devEui : List Char}
    (hbody : o.body = some event) (hdev : event.devEui = some devEui)
    (hlen : textLength devEui = DEV_EUI_LENGTH) :
    o.reference = substring devEui METER_REFERENCE_OFFSET := by
  unfold Occurrence.body at hbody
  split at hbody
  next number members query =>
    cases hbody
    unfold Occurrence.reference Body.meterReference
    dsimp only
    rw [hdev]
    dsimp only
    split
    next => rfl
    next hn =>
      have hempty : substring devEui METER_REFERENCE_OFFSET = [] := by
        by_contra hs
        exact hn ⟨hlen, hs⟩
      rw [hempty, Option.getD_none]
  next => cases hbody

/-- An uplink that comes in is of the device of its body. -/
theorem Brings.uplink {k now : Nat} {key : CorrelationKey} {u : Uplink}
    (h : Brings bufferFrom run k now key (.right u)) :
    ∃ o, run[k]? = some (now, o) ∧ u.device.externalReference = o.reference := by
  obtain ⟨o, ho, harrive⟩ := h
  refine ⟨o, ho, ?_⟩
  unfold Occurrence.arrival at harrive
  split at harrive
  next number members query =>
    obtain ⟨x, hx, he⟩ := Option.map_eq_some_iff.mp harrive
    injection he with hkey hhalf
    subst hhalf
    unfold Body.half at hx
    unfold Occurrence.reference
    split at hx
    next => cases hx
    next ref href =>
      dsimp only
      rw [href, Option.getD_some]
      split at hx
      next =>
        obtain ⟨q, -, hq⟩ := Option.map_eq_some_iff.mp hx
        cases hq
      next =>
        obtain ⟨v, hv, hq⟩ := Option.map_eq_some_iff.mp hx
        cases hq
        unfold Body.solicited at hv
        split at hv
        next =>
          split at hv
          next => cases hv
          next =>
            cases hv
            rfl
        next => cases hv
      next => cases hx
  next => cases harrive
  next => cases harrive

/-- An answer is about the device of a body that it is made of. -/
theorem answer_device (he : answer bufferFrom run i = some e) :
    ∃ k now o, MadeOf bufferFrom run i e k ∧ run[k]? = some (now, o) ∧
      e.device.externalReference = o.reference := by
  rcases answer_cases he with ⟨j, k, hcombines⟩ | ⟨now, o, s, hm, halone⟩
  · have hhalves := hcombines
    obtain ⟨now, now', key, q, u, -, hu, -, -, rfl⟩ := hhalves
    obtain ⟨o, ho, hdevice⟩ := hu.uplink
    exact ⟨k, now', o, .inr ⟨j, hcombines⟩, ho, hdevice⟩
  · exact ⟨i, now, o, .inl rfl, hm, halone.device e rfl⟩

end Events

section Webhook

/-- Every event that is persisted for the adopter is of the device with this reference. -/
def telling (externalReference : String) : Monitor Cmd Reply Unit where
  allows _ c := ∀ record now, c = .redis (.webhookEnqueue record now) →
    record.event.message.device.externalReference = externalReference
  next _ _ _ _ := True

theorem telling_quiet {ref : String} (c : Cmd) (hc : c.Quiet) :
    (Prog.command c : Engine (Reply c)).Keeps (telling ref) fun _ => True := by
  intro s _
  refine ⟨fun record now h => ?_, fun _ _ _ => trivial⟩
  subst h
  exact hc.elim

theorem buildWebhookEvent_device {message : PartialMessage} {device : Device} {now : Nat}
    {eventId : String} {event : WebhookEvent} (hd : message.device = some device)
    (h : buildWebhookEvent message now eventId = .ok event) : event.message.device = device := by
  unfold buildWebhookEvent at h
  rw [hd] at h
  split at h
  next => cases h
  next => cases h
  next => cases h
  next hdevice =>
    cases hdevice
    cases h
    rfl

theorem emit_telling {svc : Service} {message : PartialMessage} {device : Device}
    (hd : message.device = some device) :
    (emitDeliveryEvent svc message).Keeps (telling device.externalReference) fun _ => True := by
  unfold emitDeliveryEvent
  split
  next =>
    unfold storeAndEmit
    refine Prog.keeps_bind (telling_quiet .dateNow trivial) fun occurredAt => ?_
    refine Prog.keeps_bind (telling_quiet .ulid trivial) fun eventId => ?_
    cases hb : buildWebhookEvent message occurredAt eventId with
    | error e => exact Prog.keeps_pure ()
    | ok event =>
      refine Prog.keeps_bind (telling_quiet .dateNow trivial) fun now => ?_
      refine keeps_redis fun s _ => ⟨fun record at' hc => ?_, fun _ _ _ => trivial⟩
      cases hc
      rw [buildWebhookEvent_device hd hb]
  next => exact Prog.keeps_pure ()

/-- A success is told the adopter with the device of the event. -/
theorem processSuccess_telling (svc : Service) (id : MessageId)
    (e : DeviceMessaging.ParsedIncomingEvent) (plugin : DeliveryPlugin) :
    (processSuccess svc id e plugin).Keeps (telling e.device.externalReference) fun _ => True := by
  unfold processSuccess
  refine Prog.keeps_bind (getMessageById_keeps telling_quiet id) fun message => ?_
  cases message with
  | none => exact Prog.keeps_pure _
  | some message =>
    refine Prog.keeps_bind (telling_quiet .dateNow trivial) fun timestamp => ?_
    refine Prog.keeps_bind (emit_telling rfl) fun _ => ?_
    exact Prog.keeps_bind (purge_keeps telling_quiet message) fun _ => Prog.keeps_pure _

end Webhook

section Reported

/-- The device that is reported for a request is the one the message was enqueued for: in the
reference that a body of the addressed DevEUI is read with, in the answers of a run that are made
of such bodies, and in what the adopter is told of a success. -/
structure Reported (message : DeviceMessage) (request : DeviceRequest) : Prop where
  derived : ∀ event : Body, event.devEui = some request.deviceEui →
    event.meterReference = some message.device.externalReference.toList
  answered : ∀ bufferFrom run i e, answer bufferFrom run i = some e →
    (∀ k, MadeOf bufferFrom run i e k → devEuiAt run k = some request.deviceEui) →
    e.device.externalReference = message.device.externalReference.toList
  told : ∀ bufferFrom run i e, answer bufferFrom run i = some e →
    (∀ k, MadeOf bufferFrom run i e k → devEuiAt run k = some request.deviceEui) →
    ∀ event : DeviceMessaging.ParsedIncomingEvent,
      event.device.externalReference.toList = e.device.externalReference → ∀ svc id plugin,
      (processSuccess svc id event plugin).Keeps (telling message.device.externalReference)
        fun _ => True

variable {message : DeviceMessage} {request : DeviceRequest}

/-- A request with a frame is for a device of up to twelve digits. -/
theorem sendOne_framed (hsend : sendOne message = .ok request)
    (hframed : message.commandType ≠ some .readPowerLimit) :
    request.deviceEui = deviceEuiOf message.device.externalReference.toList ∧
      (∀ c ∈ message.device.externalReference.toList, c.toNat < 65536) ∧
      message.device.externalReference.toList.length ≤ 12 := by
  unfold sendOne at hsend
  split at hsend
  next => cases hsend
  next bytes hbytes =>
    cases hsend
    obtain ⟨commandType, hcommand, hencode⟩ := Option.bind_eq_some_iff.mp hbytes
    have hne : (toEncode commandType message).requestType ≠ .readPowerLimit :=
      fun h => hframed (hcommand.trans (congrArg some h))
    unfold Calin.encodeRequestData at hencode
    rw [if_neg hne] at hencode
    obtain ⟨address, haddress, -⟩ := Option.bind_eq_some_iff.mp hencode
    obtain ⟨hdigits, hlen⟩ := deviceEuiBytesOf_digits haddress
    exact ⟨rfl, fun c hc => isHexDigit_basic (hdigits c hc), hlen⟩

/-- The device reported back is the one commanded just when its reference has eleven digits. -/
theorem reported_iff (hsend : sendOne message = .ok request)
    (hframed : message.commandType ≠ some .readPowerLimit) :
    Reported message request ↔ message.device.externalReference.toList.length = 11 := by
  obtain ⟨heui, hbasic, hlen⟩ := sendOne_framed hsend hframed
  have hdrop := drop_deviceEuiOf hbasic hlen
  have hlength : textLength request.deviceEui = DEV_EUI_LENGTH := by
    rw [heui, textLength_basic (deviceEuiOf_basic hbasic), deviceEuiOf_length hbasic hlen]
    rfl
  have hsub : substring request.deviceEui METER_REFERENCE_OFFSET =
      (deviceEuiOf message.device.externalReference.toList).drop METER_REFERENCE_OFFSET := by
    rw [heui, substring_basic (deviceEuiOf_basic hbasic)]
  constructor
  · intro h
    have hown : (Body.mk 0 [("deviceInfo".toList,
        .obj [("devEui".toList, .str request.deviceEui)])]).devEui = some request.deviceEui := rfl
    have href := h.derived _ hown
    unfold Body.meterReference at href
    rw [hown] at href
    dsimp only at href
    split at href
    next => exact hdrop.mp (hsub.symm.trans (Option.some.inj href))
    next => cases href
  · intro h
    have hreference : substring request.deviceEui METER_REFERENCE_OFFSET =
        message.device.externalReference.toList := hsub.trans (hdrop.mpr h)
    have hdevice : ∀ bufferFrom run i e, answer bufferFrom run i = some e →
        (∀ k, MadeOf bufferFrom run i e k → devEuiAt run k = some request.deviceEui) →
        e.device.externalReference = message.device.externalReference.toList := by
      intro bufferFrom run i e he hmade
      obtain ⟨k, now, o, hk, ho, hdevice⟩ := answer_device he
      obtain ⟨event, hbody, hdev⟩ := Option.bind_eq_some_iff.mp (hmade k hk)
      rw [ho] at hbody
      rw [hdevice, Occurrence.reference_devEui hbody hdev hlength, hreference]
    refine ⟨fun event hdev => ?_, hdevice, fun bufferFrom run i e he hmade event hevent => ?_⟩
    · have hne : substring request.deviceEui METER_REFERENCE_OFFSET ≠ [] := by
        rw [hreference]
        exact List.ne_nil_of_length_pos (by omega)
      unfold Body.meterReference
      rw [hdev]
      dsimp only
      rw [if_pos ⟨hlength, hne⟩, hreference]
    · have hsame : event.device.externalReference = message.device.externalReference :=
        String.ext (hevent.trans (hdevice bufferFrom run i e he hmade))
      rw [← hsame]
      exact fun svc id plugin => processSuccess_telling svc id event plugin

end Reported

/-- A credit reading of a meter. -/
def meterMessage (externalReference : String) : DeviceMessage :=
  { sampleMessage with device := { externalReference := externalReference } }

def meterRequest : DeviceRequest where
  deviceEui := "0000047003333771".toList
  bytes := [0x68, 0x71, 0x37, 0x33, 0x03, 0x70, 0x04, 0x68, 0x01, 0x02, 0x54, 0x17, 0x90, 0x16]

theorem meterRequest_reported : Reported (meterMessage "47003333771") meterRequest :=
  (reported_iff (by decide +kernel) (by decide)).mpr (by decide)

/-- The address of a meter with twelve digits. -/
def longRequest : DeviceRequest where
  deviceEui := "0000147003333771".toList
  bytes := [0x68, 0x71, 0x37, 0x33, 0x03, 0x70, 0x14, 0x68, 0x01, 0x02, 0x54, 0x17, 0xA0, 0x16]

/-- It is reported as another meter, without its first digit. -/
theorem longRequest_misreported :
    ¬ ∀ message request, sendOne message = .ok request →
      message.commandType ≠ some .readPowerLimit → Reported message request := by
  intro h
  have hr := h (meterMessage "147003333771") longRequest (by decide +kernel) (by decide)
  have href := hr.derived (Body.mk 0 [("deviceInfo".toList,
    .obj [("devEui".toList, .str longRequest.deviceEui)])]) rfl
  revert href
  decide +kernel

end Chirpstack

end DeviceMessaging
