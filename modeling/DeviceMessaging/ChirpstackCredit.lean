import DeviceMessaging.ChirpstackPairs

namespace DeviceMessaging

open PairJoin (Half)

namespace Chirpstack

def Occurrence.body (o : Occurrence) : Option Body :=
  match o with
  | .posted number (.obj members) _ => some ⟨number, members⟩
  | _ => none

/-- The `deduplicationId` of the body of the `i`th occurrence, if it is a text. -/
def textId (run : Run) (i : Nat) : Option (List Char) :=
  (run[i]?.bind fun m => m.2.body).bind fun event =>
    match event.get "deduplicationId" with
    | some (.str id) => some id
    | _ => none

def devEuiAt (run : Run) (i : Nat) : Option (List Char) :=
  (run[i]?.bind fun m => m.2.body).bind Body.devEui

section Credits

variable (bufferFrom : JsValue → Js (List Calin.Byte))

/-- The `i`th occurrence returns an event that combines the acknowledgement of the `j`th with the
uplink of the `k`th: one of them is the `i`th itself, and the other one is the last half before
it under their key. -/
def Combines (run : Run) (i j k : Nat) (e : ParsedIncomingEvent) : Prop :=
  ∃ now now' key q u, Brings bufferFrom run j now key (.left q) ∧
    Brings bufferFrom run k now' key (.right u) ∧ i = max j k ∧
    (∀ l, min j k < l → l < i → ∀ t half, ¬ Brings bufferFrom run l t key half) ∧
    e = combined q u

/-- Every success that is not unsolicited combines two bodies with one text as their id and
one DevEUI. -/
def Credited (run : Run) : Prop :=
  ∀ i e, answer bufferFrom run i = some e → e.deliveryStatus = .DELIVERY_SUCCESSFUL →
    e.unsolicited = false →
    ∃ j k id devEui, Combines bufferFrom run i j k e ∧
      textId run j = some id ∧ textId run k = some id ∧
      devEuiAt run j = some devEui ∧ devEuiAt run k = some devEui

/-- Where a half comes from. -/
structure Origin where
  key : CorrelationKey
  isAck : Bool
  devEui : Option (List Char)
  deriving DecidableEq

def Occurrence.origin (o : Occurrence) : Option Origin :=
  (o.side bufferFrom).map fun s => ⟨s.1, s.2, o.body.bind Body.devEui⟩

def CorrelationKey.isText (key : CorrelationKey) : Bool :=
  match key with
  | .string _ => true
  | _ => false

/-- An acknowledgement and an uplink with the same id: a text, of the same device. -/
def Origin.Agree (a b : Origin) : Prop :=
  a.isAck = true → b.isAck = false → a.key = b.key → a.key.isText = true ∧ a.devEui = b.devEui

instance (a b : Origin) : Decidable (a.Agree b) :=
  inferInstanceAs (Decidable (_ → _ → _ → _ ∧ _))

def OriginsAgree (run : Run) : Prop :=
  ∀ a ∈ run.filterMap fun m => m.2.origin bufferFrom,
    ∀ b ∈ run.filterMap fun m => m.2.origin bufferFrom, a.Agree b

instance (run : Run) : Decidable (OriginsAgree bufferFrom run) :=
  inferInstanceAs (Decidable (∀ a ∈ _, ∀ b ∈ _, _))

end Credits

section Sources

variable {bufferFrom : JsValue → Js (List Calin.Byte)} {run : Run}

/-- A pair of the history is made by its last half in the run. -/
theorem meeting_occurrence {key : CorrelationKey} {half : CorrelationHalf}
    {p : QueueItem × Uplink}
    (h : PairJoin.meeting (PairJoin.table CORRELATION_TTL_MS (history bufferFrom run)) key half =
      some p) :
    ∃ j now other, Brings bufferFrom run j now key other ∧
      (∀ l, j < l → ∀ t x, ¬ Brings bufferFrom run l t key x) ∧ other.meet half = some p := by
  obtain ⟨before, now, other, later, hshape, hquiet, hmeet⟩ := PairJoin.meeting_source h
  obtain ⟨first, rest, rfl, -, hrest⟩ := List.filterMap_eq_append_iff.mp hshape
  obtain ⟨between, ⟨t, o⟩, last, rfl, -, ho, hlast⟩ := List.filterMap_eq_cons_iff.mp hrest
  obtain ⟨event, harrive, hpair⟩ := Option.map_eq_some_iff.mp ho
  cases hpair
  refine ⟨(first ++ between).length, t, other, ⟨o, ?_, harrive⟩, ?_, hmeet⟩
  · rw [← List.append_assoc, List.getElem?_append_right (Nat.le_refl _), Nat.sub_self,
      List.getElem?_cons_zero]
  · rintro l hl t' x ⟨o', ho', harrive'⟩
    rw [← List.append_assoc, List.getElem?_append_right (Nat.le_of_lt hl)] at ho'
    obtain ⟨d, hd⟩ : ∃ d, l - (first ++ between).length = d + 1 :=
      ⟨l - (first ++ between).length - 1, by omega⟩
    rw [hd, List.getElem?_cons_succ] at ho'
    refine hquiet (t', .arrive key x) ?_ x rfl
    rw [← hlast]
    refine List.mem_filterMap.mpr ⟨(t', o'), List.mem_of_getElem? ho', ?_⟩
    unfold timedArrival
    rw [harrive', Option.map_some]

theorem Brings.of_take {i l now : Nat} {key : CorrelationKey} {half : CorrelationHalf}
    (h : Brings bufferFrom (run.take i) l now key half) :
    l < i ∧ Brings bufferFrom run l now key half := by
  obtain ⟨o, ho, harrive⟩ := h
  rw [List.getElem?_take] at ho
  split at ho
  next hl => exact ⟨hl, o, ho, harrive⟩
  next => cases ho

theorem Brings.to_take {i l now : Nat} {key : CorrelationKey} {half : CorrelationHalf}
    (hl : l < i) (h : Brings bufferFrom run l now key half) :
    Brings bufferFrom (run.take i) l now key half := by
  obtain ⟨o, ho, harrive⟩ := h
  exact ⟨o, by rw [List.getElem?_take_of_lt hl, ho], harrive⟩

theorem returnedEvent_other {now : Nat} {o : Occurrence} {s : Correlations} {e : ParsedIncomingEvent}
    (h : o.arrival bufferFrom = none) (he : returnedEvent bufferFrom s (now, o) = some e) :
    Alone o.reference s (some e, s) := by
  unfold returnedEvent at he
  split at he
  next handled hh =>
    have halone := occur_other h hh
    exact .returned (halone.unjoined e he) (halone.device e he)
  next => cases he

/-- An answer combines the half that arrives with the last one before, or nothing. -/
theorem answer_cases {i : Nat} {e : ParsedIncomingEvent}
    (he : answer bufferFrom run i = some e) :
    (∃ j k, Combines bufferFrom run i j k e) ∨
      ∃ now o s, run[i]? = some (now, o) ∧ Alone o.reference s (some e, s) := by
  obtain ⟨⟨now, o⟩, hm, hr⟩ := Option.bind_eq_some_iff.mp he
  cases ho : o.arrival bufferFrom with
  | none => exact .inr ⟨now, o, _, hm, returnedEvent_other ho hr⟩
  | some event =>
    cases event with
    | sweep =>
      cases arrival_sweep ho
      cases hr
    | arrive key half =>
      rw [returnedEvent_arrive ho] at hr
      obtain ⟨⟨q, u⟩, hmeeting, rfl⟩ := Option.map_eq_some_iff.mp hr
      obtain ⟨j, now', other, hother, hlater, hmeet⟩ := meeting_occurrence hmeeting
      obtain ⟨hj, hbrings⟩ := hother.of_take
      have hown : Brings bufferFrom run i now key half := ⟨o, hm, ho⟩
      have hbetween : ∀ l, j < l → l < i → ∀ t x, ¬ Brings bufferFrom run l t key x :=
        fun l hl hi t x hx => hlater l hl t x (hx.to_take hi)
      rcases PairJoin.meet_some hmeet with ⟨rfl, rfl⟩ | ⟨rfl, rfl⟩
      · refine .inl ⟨j, i, now', now, key, q, u, hbrings, hown, ?_, ?_, rfl⟩
        · exact (Nat.max_eq_right (Nat.le_of_lt hj)).symm
        · rwa [Nat.min_eq_left (Nat.le_of_lt hj)]
      · refine .inl ⟨i, j, now, now', key, q, u, hown, hbrings, ?_, ?_, rfl⟩
        · exact (Nat.max_eq_left (Nat.le_of_lt hj)).symm
        · rwa [Nat.min_eq_right (Nat.le_of_lt hj)]

/-- A half comes in a body that is addressed by a DevEUI, under its id. -/
theorem Brings.body {j now : Nat} {key : CorrelationKey} {half : CorrelationHalf}
    (h : Brings bufferFrom run j now key half) :
    ∃ (o : Occurrence) (event : Body) (devEui : List Char), run[j]? = some (now, o) ∧
      o.body = some event ∧ event.deduplicationId = key ∧ event.devEui = some devEui ∧
      o.origin bufferFrom = some ⟨key, half.isLeft, some devEui⟩ := by
  obtain ⟨o, ho, harrive⟩ := h
  have hside : o.side bufferFrom = some (key, half.isLeft) := by
    unfold Occurrence.side
    rw [harrive]
  unfold Occurrence.arrival at harrive
  split at harrive
  next number members query =>
    obtain ⟨x, hx, he⟩ := Option.map_eq_some_iff.mp harrive
    injection he with hkey
    obtain ⟨devEui, hdev⟩ : ∃ devEui, (Body.mk number members).devEui = some devEui := by
      unfold Body.half Body.meterReference at hx
      cases hdev : (Body.mk number members).devEui with
      | none =>
        rw [hdev] at hx
        cases hx
      | some devEui => exact ⟨devEui, rfl⟩
    refine ⟨_, ⟨number, members⟩, devEui, ho, rfl, hkey, hdev, ?_⟩
    unfold Occurrence.origin
    rw [hside, Option.map_some]
    exact congrArg some (congrArg (Origin.mk key half.isLeft) hdev)
  next => cases harrive
  next => cases harrive

theorem deduplicationId_text {event : Body} (h : event.deduplicationId.isText = true) :
    ∃ id, event.get "deduplicationId" = some (.str id) ∧ event.deduplicationId = .string id := by
  unfold Body.deduplicationId at h ⊢
  split at h
  case h_5 id hid =>
    rw [hid]
    exact ⟨id, rfl, rfl⟩
  all_goals cases h

/-- Uplinks are credited to the device and the command they belong to, if an acknowledgement and
an uplink that come with the same id come from one device, and their id is a text. -/
theorem credited_of_originsAgree (bufferFrom : JsValue → Js (List Calin.Byte)) (run : Run)
    (h : OriginsAgree bufferFrom run) : Credited bufferFrom run := by
  intro i e he hsuccess hsolicited
  obtain ⟨j, k, hcombines⟩ := (answer_cases he).resolve_right fun ⟨_, _, _, _, halone⟩ => by
    rw [halone.unjoined e rfl hsuccess] at hsolicited
    cases hsolicited
  have hhalves := hcombines
  obtain ⟨now, now', key, q, u, hq, hu, -, -, -⟩ := hhalves
  obtain ⟨o, event, devEui, ho, hbody, hkey, hdev, horigin⟩ := hq.body
  obtain ⟨o', event', devEui', ho', hbody', hkey', hdev', horigin'⟩ := hu.body
  obtain ⟨htext, hsame⟩ := h _ (List.mem_filterMap.mpr ⟨_, List.mem_of_getElem? ho, horigin⟩) _
    (List.mem_filterMap.mpr ⟨_, List.mem_of_getElem? ho', horigin'⟩) rfl rfl rfl
  cases hsame
  dsimp only at htext
  obtain ⟨id, hid, hstring⟩ := deduplicationId_text (hkey ▸ htext)
  obtain ⟨id', hid', hstring'⟩ := deduplicationId_text (hkey' ▸ htext)
  have hids : id = id' := by
    rw [hkey, ← hkey', hstring'] at hstring
    exact (CorrelationKey.string.inj hstring).symm
  cases hids
  refine ⟨j, k, id, devEui, hcombines, ?_, ?_, ?_, ?_⟩
  · unfold textId
    rw [ho, Option.bind_some, hbody, Option.bind_some, hid]
  · unfold textId
    rw [ho', Option.bind_some, hbody', Option.bind_some, hid']
  · unfold devEuiAt
    rw [ho, Option.bind_some, hbody, Option.bind_some, hdev]
  · unfold devEuiAt
    rw [ho', Option.bind_some, hbody', Option.bind_some, hdev']

theorem lateRun_credited : Credited base64Buffer lateRun :=
  credited_of_originsAgree base64Buffer lateRun (by decide +kernel)

/-- An acknowledgement and an uplink of two devices, neither with an id. -/
def crossedRun : Run :=
  [(0, .posted 0 (ackBody "0000047003333771" []) (some "ack")),
    (1, .posted 1 (upBody "0000047003333772" []) (some "up"))]

/-- The uplink of one meter completes the command to another one. -/
theorem crossedRun_not_credited : ¬ Credited base64Buffer crossedRun := by
  intro h
  have hanswer : ((answer base64Buffer crossedRun 1).any fun e =>
      e.deliveryStatus = .DELIVERY_SUCCESSFUL ∧ e.unsolicited = false) = true := by
    decide +kernel
  obtain ⟨e, he, hjoined⟩ := (Option.any_eq_true _ _).mp hanswer
  obtain ⟨hsuccess, hsolicited⟩ := of_decide_eq_true hjoined
  obtain ⟨j, k, id, devEui, ⟨now, now', key, q, u, -, -, hmax, -⟩, hj, -⟩ :=
    h 1 e he hsuccess hsolicited
  have hnone : ∀ l ≤ 1, textId crossedRun l = none := by decide +kernel
  rw [hnone j (by omega)] at hj
  cases hj

end Sources

end Chirpstack

end DeviceMessaging
