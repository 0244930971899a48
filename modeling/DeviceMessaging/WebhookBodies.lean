import DeviceMessaging.ChirpstackCredit
import DeviceMessaging.GatewaySelection

namespace DeviceMessaging

open JsonText

namespace Chirpstack

/-- Absent, or a string. -/
def isText (value : Option JsValue) : Bool :=
  match value with
  | none | some (.str _) => true
  | _ => false

section Answers

variable (bufferFrom : JsValue → Js (List Calin.Byte))

/-- The handler does not throw, and the `deliveryQueueId` of an event that it returns is absent or a
string. -/
def Answered (handled : Js Handled) : Prop :=
  ∃ h, handled = .ok h ∧ ∀ e, h.1 = some e → isText e.deliveryQueueId = true

/-- An uplink half waits under the body's id. -/
def Body.meetsUplink (event : Body) (s : Correlations) : Bool :=
  (s event.deduplicationId).any fun entry => entry.decoded.isSome

/-- The queue item of the acknowledgement that waits under the body's id. -/
def Body.waitingItem (event : Body) (s : Correlations) : Option JsValue :=
  (s event.deduplicationId).bind CorrelationEntry.queueItemId

/-- The payload is one that bytes can be made of; where they are a frame, the relay node can be
told, and an acknowledgement that waits for a solicited one has a text as its queue item. -/
def Body.uplinkFits (event : Body) (s : Correlations) : Prop :=
  ∀ data, event.get "data" = some data → isTruthy (some data) = true →
    ∃ bytes, bufferFrom data = .ok bytes ∧
      ∀ decoded, Calin.decodeResponseData bytes = some decoded →
        Readable (event.get "rxInfo") ∧
          (decoded.unsolicitedEventType ≠ some .readReport →
            isTruthy (event.waitingItem s) = true → isText (event.waitingItem s) = true)

/-- What the handlers rely on in a body that is addressed by a DevEUI. -/
def Body.fits (event : Body) (query : Option String) (s : Correlations) : Prop :=
  match query with
  | some "txack" => isText (event.get "queueItemId") = true
  | some "ack" => isTruthy (event.get "queueItemId") = true →
      (event.acknowledged = true → event.meetsUplink s = true) →
      isText (event.get "queueItemId") = true
  | some "up" => event.uplinkFits bufferFrom s
  | _ => True

/-- What they rely on in any JSON value. -/
def Fits (number : Nat) (event : JsValue) (query : Option String) (s : Correlations) : Prop :=
  match event with
  | .obj members =>
    (Body.mk number members).meterReference.isSome → (Body.mk number members).fits bufferFrom query s
  | _ => True

end Answers

section Handlers

variable {bufferFrom : JsValue → Js (List Calin.Byte)} {now : Nat} {event : Body} {ref : List Char}
  {s : Correlations}

end Handlers

section Runs

variable {bufferFrom : JsValue → Js (List Calin.Byte)} {now : Nat} {event : Body} {ref : List Char}
  {s : Correlations} {run : Run}

/-- Every queue item that waits is a text. -/
def TextsWait (s : Correlations) : Prop :=
  ∀ key entry, s key = some entry → isText entry.queueItemId = true

theorem TextsWait.update (h : TextsWait s) (key : CorrelationKey) {entry : Option CorrelationEntry}
    (he : ∀ e ∈ entry, isText e.queueItemId = true) : TextsWait (Function.update s key entry) := by
  intro k e hk
  by_cases hkey : k = key
  · rw [hkey, Function.update_self] at hk
    exact he e hk
  · rw [Function.update_of_ne hkey] at hk
    exact h k e hk

theorem TextsWait.onAckEvent (h : TextsWait s) (hq : isText (event.get "queueItemId") = true) :
    TextsWait (onAckEvent event now s).2 := by
  unfold Chirpstack.onAckEvent
  split
  next => exact h.update _ fun _ he => (nomatch he)
  next => exact h.update _ fun _ he => Option.some.inj he ▸ hq

theorem TextsWait.onUpEvent (h : TextsWait s) (decoded : Calin.DecodedLorawanCalinEvent)
    (device : ReportedDevice) : TextsWait (onUpEvent event decoded device now s).2 := by
  unfold Chirpstack.onUpEvent
  dsimp only
  split
  next => exact h.update _ fun _ he => (nomatch he)
  next => exact h.update _ fun _ he => Option.some.inj he ▸ rfl

theorem TextsWait.handleUp (h : TextsWait s) {handled : Handled}
    (hh : handleUp bufferFrom event ref now s = .ok handled) : TextsWait handled.2 := by
  unfold Chirpstack.handleUp at hh
  obtain ⟨decoded, -, hh⟩ := except_bind_ok hh
  cases decoded with
  | none =>
    cases hh
    exact h
  | some decoded =>
    obtain ⟨relayNode, -, hh⟩ := except_bind_ok hh
    dsimp only at hh
    split at hh
    next =>
      cases hh
      exact h
    next =>
      cases hh
      exact h.onUpEvent _ _

theorem TextsWait.handleRecord (h : TextsWait s) (hq : isText (event.get "queueItemId") = true)
    {query : Option String} {handled : Handled}
    (hh : handleRecord bufferFrom event query now s = .ok handled) : TextsWait handled.2 := by
  cases href : event.meterReference with
  | none =>
    rw [handleRecord_unaddressed href] at hh
    cases hh
    exact h
  | some ref =>
    rw [handleRecord_reference href] at hh
    unfold dispatch at hh
    split at hh
    next =>
      cases hh
      exact h
    next =>
      cases hh
      unfold handleAck
      split
      next =>
        split
        next => exact h.onAckEvent hq
        next => exact h
      next => exact h
    next =>
      cases hh
      exact h
    next => exact h.handleUp hh
    next =>
      cases hh
      exact h

theorem TextsWait.next (h : TextsWait s) {m : Nat × Occurrence}
    (hm : ∀ event ∈ m.2.body, isText (event.get "queueItemId") = true) :
    TextsWait (next bufferFrom s m) := by
  obtain ⟨now, o⟩ := m
  unfold Chirpstack.next
  split
  next handled hh =>
    unfold occur at hh
    dsimp only at hh
    split at hh
    next number event query =>
      unfold handle at hh
      split at hh
      next members => exact h.handleRecord (hm ⟨number, members⟩ rfl) hh
      next =>
        cases hh
        exact h
    next =>
      cases hh
      intro key entry hentry
      exact h key entry (Option.filter_eq_some_iff.mp hentry).1
  next => exact h

end Runs

end Chirpstack

end DeviceMessaging
