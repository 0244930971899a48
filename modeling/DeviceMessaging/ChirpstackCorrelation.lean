import DeviceMessaging.ChirpstackIncoming
import DeviceMessaging.PairJoin

namespace DeviceMessaging

open PairJoin (Half)

namespace Chirpstack

/-- The queue item of an acknowledged downlink: a value that counts as present. -/
abbrev QueueItem := { q : JsValue // isTruthy (some q) = true }

structure Uplink where
  decoded : Calin.DecodedLorawanCalinEvent
  device : ReportedDevice

abbrev CorrelationHalf := Half QueueItem Uplink

def combined (q : QueueItem) (u : Uplink) : ParsedIncomingEvent :=
  combinedEvent (some q.1) u.decoded u.device

section Halves

/-- The meter reference of a body that is addressed by a DevEUI. -/
def Body.meterReference (event : Body) : Option (List Char) :=
  match event.devEui with
  | none => none
  | some devEui =>
    if textLength devEui = DEV_EUI_LENGTH ∧ substring devEui METER_REFERENCE_OFFSET ≠ [] then
      some (substring devEui METER_REFERENCE_OFFSET)
    else none

/-- The queue item of a positive acknowledgement. -/
def Body.positiveAck (event : Body) : Option QueueItem :=
  match event.get "queueItemId" with
  | none => none
  | some q =>
    if h : isTruthy (some q) = true then
      if event.acknowledged then some ⟨q, h⟩ else none
    else none

variable (bufferFrom : JsValue → Js (List Calin.Byte))

/-- An uplink that is decoded and was asked for. -/
def Body.solicited (event : Body) (meterExternalReference : List Char) : Option Uplink :=
  match event.decoded bufferFrom, relayNodeOf (event.get "rxInfo") with
  | .ok (some decoded), .ok relayNode =>
    if decoded.unsolicitedEventType = some .readReport then none
    else some ⟨decoded, createDevice meterExternalReference relayNode⟩
  | _, _ => none

/-- The half of a pair that a body brings. -/
def Body.half (event : Body) (query : Option String) : Option CorrelationHalf :=
  match event.meterReference with
  | none => none
  | some meterExternalReference =>
    match query with
    | some "ack" => event.positiveAck.map Half.left
    | some "up" => (event.solicited bufferFrom meterExternalReference).map Half.right
    | _ => none

end Halves

section Runs

/-- A body is posted, with its number and its `?event=`, or the garbage collection runs. -/
inductive Occurrence
  | posted (number : Nat) (event : JsValue) (query : Option String)
  | collected

/-- Occurrences with the clock readings they happen at. -/
abbrev Run := List (Nat × Occurrence)

variable (bufferFrom : JsValue → Js (List Calin.Byte))

def occur (pendingCorrelations : Correlations) (m : Nat × Occurrence) : Js Handled :=
  match m.2 with
  | .posted number event query => handle bufferFrom number event query m.1 pendingCorrelations
  | .collected => pure (none, runGarbageCollection m.1 pendingCorrelations)

/-- What an occurrence leaves; nothing has changed when a handler throws. -/
def next (pendingCorrelations : Correlations) (m : Nat × Occurrence) : Correlations :=
  match occur bufferFrom pendingCorrelations m with
  | .ok handled => handled.2
  | .error _ => pendingCorrelations

def correlations (run : Run) : Correlations :=
  run.foldl (next bufferFrom) fun _ => none

/-- The event that an occurrence returns. -/
def returnedEvent (pendingCorrelations : Correlations) (m : Nat × Occurrence) :
    Option ParsedIncomingEvent :=
  match occur bufferFrom pendingCorrelations m with
  | .ok handled => handled.1
  | .error _ => none

/-- What the `i`th occurrence of a run returns. -/
def answer (run : Run) (i : Nat) : Option ParsedIncomingEvent :=
  run[i]?.bind fun m => returnedEvent bufferFrom (correlations bufferFrom (run.take i)) m

/-- What an occurrence is to the correlation; other bodies do not reach it. -/
def Occurrence.arrival (o : Occurrence) :
    Option (PairJoin.Event CorrelationKey QueueItem Uplink) :=
  match o with
  | .posted number (.obj members) query =>
    ((Body.mk number members).half bufferFrom query).map fun half =>
      .arrive (Body.mk number members).deduplicationId half
  | .posted _ _ _ => none
  | .collected => some .sweep

def timedArrival (m : Nat × Occurrence) :
    Option (Nat × PairJoin.Event CorrelationKey QueueItem Uplink) :=
  (m.2.arrival bufferFrom).map fun e => (m.1, e)

/-- The run as the correlation sees it. -/
def history (run : Run) : PairJoin.History CorrelationKey QueueItem Uplink :=
  run.filterMap (timedArrival bufferFrom)

/-- The `i`th occurrence brings a half under this key. -/
def Brings (run : Run) (i now : Nat) (key : CorrelationKey) (half : CorrelationHalf) : Prop :=
  ∃ o, run[i]? = some (now, o) ∧ o.arrival bufferFrom = some (.arrive key half)

end Runs

section Simulation

theorem undecoded : (none : Option ReportedDevice).isSome =
    (none : Option Calin.DecodedLorawanCalinEvent).isSome := rfl

/-- The entry of a half that waits. -/
def entryOf (w : PairJoin.Waiting QueueItem Uplink) : CorrelationEntry :=
  match w.half with
  | .left q => { queueItemId := some q.1, timestamp := w.since, device_decoded := undecoded }
  | .right u => { decoded := some u.decoded, device := some u.device, timestamp := w.since }

def entries (table : PairJoin.Table CorrelationKey QueueItem Uplink) : Correlations :=
  fun key => (table key).map entryOf

variable {bufferFrom : JsValue → Js (List Calin.Byte)}
  {table : PairJoin.Table CorrelationKey QueueItem Uplink} {now : Nat}

theorem entries_update (key : CorrelationKey) (w : Option (PairJoin.Waiting QueueItem Uplink)) :
    entries (Function.update table key w) =
      Function.update (entries table) key (w.map entryOf) := by
  funext k
  unfold entries
  by_cases hk : k = key
  · rw [hk, Function.update_self, Function.update_self]
  · rw [Function.update_of_ne hk, Function.update_of_ne hk]

/-- What a half that arrives returns and leaves. -/
def Joined (table : PairJoin.Table CorrelationKey QueueItem Uplink) (now : Nat)
    (key : CorrelationKey) (half : CorrelationHalf) : Handled :=
  ((PairJoin.meeting table key half).map fun p => combined p.1 p.2,
    entries (PairJoin.arrive table now key half))

theorem onAckEvent_joined {event : Body} {q : QueueItem}
    (hq : event.get "queueItemId" = some q.1) :
    onAckEvent event now (entries table) =
      Joined table now event.deduplicationId (.left q) := by
  unfold onAckEvent Joined PairJoin.arrive PairJoin.meeting
  rw [entries_update, hq]
  unfold entries
  cases hw : table event.deduplicationId with
  | none => rfl
  | some w =>
    obtain ⟨half, since⟩ := w
    cases half <;> rfl

theorem onUpEvent_joined {event : Body} (u : Uplink) :
    onUpEvent event u.decoded u.device now (entries table) =
      Joined table now event.deduplicationId (.right u) := by
  unfold onUpEvent Joined PairJoin.arrive PairJoin.meeting
  rw [entries_update]
  unfold entries
  cases hw : table event.deduplicationId with
  | none => rfl
  | some w =>
    obtain ⟨half, since⟩ := w
    cases half with
    | left q => exact if_pos q.2
    | right v => rfl

theorem runGarbageCollection_entries :
    runGarbageCollection now (entries table) =
      entries (PairJoin.sweep CORRELATION_TTL_MS table now) := by
  funext key
  unfold runGarbageCollection entries PairJoin.sweep
  rw [Option.filter_map]
  refine congrArg (Option.map entryOf) (congrArg (Option.filter · (table key)) ?_)
  funext w
  obtain ⟨half, since⟩ := w
  cases half <;> rfl

theorem handleRecord_reference {event : Body} {query : Option String} {ref : List Char}
    {s : Correlations} (h : event.meterReference = some ref) :
    handleRecord bufferFrom event query now s = dispatch bufferFrom event query ref now s := by
  unfold Body.meterReference at h
  unfold handleRecord
  cases hdev : event.devEui with
  | none =>
    rw [hdev] at h
    cases h
  | some devEui =>
    simp only [hdev] at h ⊢
    split at h
    next hlen =>
      cases h
      simp only [if_pos hlen.1, if_neg hlen.2]
    next => cases h

theorem handleRecord_unaddressed {event : Body} {query : Option String} {s : Correlations}
    (h : event.meterReference = none) :
    handleRecord bufferFrom event query now s = .ok (none, s) := by
  unfold Body.meterReference at h
  unfold handleRecord
  cases hdev : event.devEui with
  | none => rfl
  | some devEui =>
    simp only [hdev] at h ⊢
    split at h
    next => cases h
    next hlen =>
      by_cases hl : textLength devEui = DEV_EUI_LENGTH
      · have hs : substring devEui METER_REFERENCE_OFFSET = [] :=
          by_contra fun hs => hlen ⟨hl, hs⟩
        simp only [if_pos hl, if_pos hs]
        rfl
      · simp only [if_neg hl]
        rfl

theorem handleAck_positive {event : Body} {q : QueueItem} {ref : List Char} {s : Correlations}
    (h : event.positiveAck = some q) :
    event.get "queueItemId" = some q.1 ∧ handleAck event ref now s = onAckEvent event now s := by
  unfold Body.positiveAck at h
  split at h
  next => cases h
  next v hv =>
    split at h
    next ht =>
      split at h
      next ha =>
        cases h
        refine ⟨hv, ?_⟩
        unfold handleAck
        rw [hv, if_pos ht, if_pos ha]
      next => cases h
    next => cases h

/-- The event combines nothing: it reports no success, or one that nobody asked for. -/
def Unjoined (e : ParsedIncomingEvent) : Prop :=
  e.deliveryStatus = .DELIVERY_SUCCESSFUL → e.unsolicited = true

/-- Nothing is joined and nothing waits: an event that is returned is of the body's device. -/
structure Alone (ref : List Char) (s : Correlations) (handled : Handled) : Prop where
  table : handled.2 = s
  unjoined : ∀ e, handled.1 = some e → Unjoined e
  device : ∀ e, handled.1 = some e → e.device.externalReference = ref

theorem Alone.silent {ref : List Char} {s : Correlations} : Alone ref s (none, s) :=
  ⟨rfl, fun _ he => (nomatch he), fun _ he => (nomatch he)⟩

theorem Alone.returned {ref : List Char} {s : Correlations} {e : ParsedIncomingEvent}
    (hu : Unjoined e) (hd : e.device.externalReference = ref) : Alone ref s (some e, s) :=
  ⟨rfl, fun _ he => Option.some.inj he ▸ hu, fun _ he => Option.some.inj he ▸ hd⟩

theorem handleAck_other {event : Body} {ref : List Char} {s : Correlations}
    (h : event.positiveAck = none) : Alone ref s (handleAck event ref now s) := by
  unfold handleAck
  unfold Body.positiveAck at h
  split
  next ht =>
    split
    next ha =>
      split at h
      next hv =>
        rw [hv] at ht
        cases ht
      next v hv =>
        rw [hv] at ht
        rw [dif_pos ht, if_pos ha] at h
        cases h
    next => exact .returned (fun hs => (nomatch hs)) rfl
  next => exact .silent

theorem handleUp_solicited {event : Body} {u : Uplink} {ref : List Char} {s : Correlations}
    (h : event.solicited bufferFrom ref = some u) :
    handleUp bufferFrom event ref now s = .ok (onUpEvent event u.decoded u.device now s) := by
  unfold Body.solicited at h
  unfold handleUp
  split at h
  next decoded relayNode hd hr =>
    split at h
    next => cases h
    next hsolicited =>
      cases h
      simp only [hd, hr, bind, Except.bind, if_neg hsolicited]
      rfl
  next => cases h

theorem handleUp_other {event : Body} {ref : List Char} {s : Correlations} {handled : Handled}
    (h : event.solicited bufferFrom ref = none)
    (hh : handleUp bufferFrom event ref now s = .ok handled) : Alone ref s handled := by
  unfold Body.solicited at h
  unfold handleUp at hh
  obtain ⟨decoded, hd, hh⟩ := except_bind_ok hh
  cases decoded with
  | none =>
    cases hh
    exact .silent
  | some decoded =>
    obtain ⟨relayNode, hr, hh⟩ := except_bind_ok hh
    rw [hd, hr] at h
    by_cases hreport : decoded.unsolicitedEventType = some .readReport
    · simp only [if_pos hreport] at hh
      cases hh
      exact .returned (fun _ => rfl) rfl
    · simp only [if_neg hreport] at h
      cases h

/-- A body that brings a half is handled as its arrival. -/
theorem handleRecord_half {event : Body} {query : Option String} {half : CorrelationHalf}
    (h : event.half bufferFrom query = some half) :
    handleRecord bufferFrom event query now (entries table) =
      .ok (Joined table now event.deduplicationId half) := by
  unfold Body.half at h
  split at h
  next => cases h
  next ref href =>
    rw [handleRecord_reference href]
    split at h
    next =>
      obtain ⟨q, hq, rfl⟩ := Option.map_eq_some_iff.mp h
      have hack : event.get "queueItemId" = some q.1 ∧
          handleAck event ref now (entries table) = onAckEvent event now (entries table) :=
        handleAck_positive hq
      rw [← onAckEvent_joined hack.1, ← hack.2]
      rfl
    next =>
      obtain ⟨u, hu, rfl⟩ := Option.map_eq_some_iff.mp h
      rw [← onUpEvent_joined u, ← handleUp_solicited hu]
      rfl
    next => cases h

/-- A body that brings none is handled alone. -/
theorem handleRecord_other {event : Body} {query : Option String} {s : Correlations}
    {handled : Handled} (h : event.half bufferFrom query = none)
    (hh : handleRecord bufferFrom event query now s = .ok handled) :
    Alone (event.meterReference.getD []) s handled := by
  unfold Body.half at h
  split at h
  next href =>
    rw [handleRecord_unaddressed href] at hh
    cases hh
    exact .silent
  next ref href =>
    rw [handleRecord_reference href] at hh
    rw [href, Option.getD_some]
    unfold dispatch at hh
    split at hh
    next =>
      cases hh
      exact .returned (fun hs => (nomatch hs)) rfl
    next =>
      cases hh
      exact handleAck_other (Option.map_eq_none_iff.mp h)
    next =>
      cases hh
      exact .returned (fun _ => rfl) rfl
    next => exact handleUp_other (Option.map_eq_none_iff.mp h) hh
    next =>
      cases hh
      exact .silent

theorem occur_arrive {o : Occurrence} {key : CorrelationKey} {half : CorrelationHalf}
    (h : o.arrival bufferFrom = some (.arrive key half)) :
    occur bufferFrom (entries table) (now, o) = .ok (Joined table now key half) := by
  unfold Occurrence.arrival at h
  split at h
  next number members query =>
    obtain ⟨x, hx, he⟩ := Option.map_eq_some_iff.mp h
    cases he
    exact handleRecord_half hx
  next => cases h
  next => cases h

/-- The meter reference of the body of an occurrence, if it has one. -/
def Occurrence.reference (o : Occurrence) : List Char :=
  match o with
  | .posted number (.obj members) _ => (Body.mk number members).meterReference.getD []
  | _ => []

theorem occur_other {o : Occurrence} {s : Correlations} {handled : Handled}
    (h : o.arrival bufferFrom = none) (hh : occur bufferFrom s (now, o) = .ok handled) :
    Alone o.reference s handled := by
  unfold Occurrence.arrival at h
  split at h
  next number members query => exact handleRecord_other (Option.map_eq_none_iff.mp h) hh
  next number event query hrecord =>
    unfold occur handle at hh
    dsimp only at hh
    split at hh
    next members => exact absurd rfl (hrecord members)
    next =>
      cases hh
      exact .silent
  next => cases h

theorem arrival_sweep {o : Occurrence} (h : o.arrival bufferFrom = some .sweep) :
    o = .collected := by
  unfold Occurrence.arrival at h
  split at h
  next =>
    obtain ⟨x, -, he⟩ := Option.map_eq_some_iff.mp h
    cases he
  next => cases h
  next => rfl

theorem next_entries (m : Nat × Occurrence) :
    next bufferFrom (entries table) m =
      entries ((timedArrival bufferFrom m).elim table fun e =>
        PairJoin.step CORRELATION_TTL_MS table e) := by
  obtain ⟨now, o⟩ := m
  unfold next timedArrival
  cases ho : o.arrival bufferFrom with
  | none =>
    split
    next handled hh => exact (occur_other ho hh).table
    next => rfl
  | some e =>
    cases e with
    | arrive key half =>
      rw [occur_arrive ho]
      rfl
    | sweep =>
      cases arrival_sweep ho
      exact runGarbageCollection_entries

end Simulation

section History

variable {bufferFrom : JsValue → Js (List Calin.Byte)} {run : Run}

/-- The correlations of a run are what waits in its history. -/
theorem correlations_entries (run : Run) :
    correlations bufferFrom run =
      entries (PairJoin.table CORRELATION_TTL_MS (history bufferFrom run)) := by
  induction run using List.reverseRecOn with
  | nil => rfl
  | append_singleton run m ih =>
    have hrun : correlations bufferFrom (run ++ [m]) =
        next bufferFrom (correlations bufferFrom run) m := by
      unfold correlations
      rw [List.foldl_append, List.foldl_cons, List.foldl_nil]
    rw [hrun, ih, next_entries]
    unfold history
    rw [List.filterMap_append]
    cases hm : timedArrival bufferFrom m with
    | none => rw [List.filterMap_cons_none hm, List.filterMap_nil, List.append_nil, Option.elim_none]
    | some e =>
      rw [List.filterMap_cons_some hm, List.filterMap_nil, PairJoin.table_snoc, Option.elim_some]

/-- What the occurrence of an arrival returns. -/
theorem returnedEvent_arrive {now : Nat} {o : Occurrence} {key : CorrelationKey}
    {half : CorrelationHalf} (h : o.arrival bufferFrom = some (.arrive key half)) :
    returnedEvent bufferFrom (correlations bufferFrom run) (now, o) =
      (PairJoin.meeting (PairJoin.table CORRELATION_TTL_MS (history bufferFrom run)) key half).map
        fun p => combined p.1 p.2 := by
  unfold returnedEvent
  rw [correlations_entries, occur_arrive h]
  rfl

end History

end Chirpstack

end DeviceMessaging
