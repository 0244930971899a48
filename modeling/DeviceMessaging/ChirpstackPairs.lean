import DeviceMessaging.ChirpstackCorrelation

namespace DeviceMessaging

open PairJoin (Half)

namespace Chirpstack

variable (bufferFrom : JsValue → Js (List Calin.Byte))

/-- Every occurrence is a positive acknowledgement, a solicited uplink or a garbage
collection. -/
def OnlyHalves (run : Run) : Prop :=
  ∀ m ∈ run, (m.2.arrival bufferFrom).isSome = true

/-- The id a half comes under, and whether it is an acknowledgement. -/
def Occurrence.side (o : Occurrence) : Option (CorrelationKey × Bool) :=
  match o.arrival bufferFrom with
  | some (.arrive key half) => some (key, half.isLeft)
  | _ => none

/-- For each id there is at most one acknowledgement and at most one uplink. -/
def OnePerId (run : Run) : Prop :=
  (run.filterMap fun m => m.2.side bufferFrom).Nodup

def BringsKind (run : Run) (key : CorrelationKey) (isAck : Bool) : Prop :=
  ∃ i now half, half.isLeft = isAck ∧ Brings bufferFrom run i now key half

/-- What the correlator owes a run. -/
structure Correlates (run : Run) : Prop where
  once : ∀ i j now now' key x y, Brings bufferFrom run i now key x →
    Brings bufferFrom run j now' key y → (answer bufferFrom run i).isSome →
    (answer bufferFrom run j).isSome → i = j
  second : ∀ i j now now' key q u, Brings bufferFrom run i now key (.left q) →
    Brings bufferFrom run j now' key (.right u) → now ≤ now' + CORRELATION_TTL_MS →
    now' ≤ now + CORRELATION_TTL_MS →
    answer bufferFrom run (min i j) = none ∧
      answer bufferFrom run (max i j) = some (combined q u)
  content : ∀ i e, answer bufferFrom run i = some e →
    ∃ j j' now now' key q u, Brings bufferFrom run j now key (.left q) ∧
      Brings bufferFrom run j' now' key (.right u) ∧ i = max j j' ∧ e = combined q u
  pending : (∀ m ∈ run, m.2 ≠ .collected) → ∀ key,
    (correlations bufferFrom run key).isSome ↔
      (BringsKind bufferFrom run key true ↔ ¬ BringsKind bufferFrom run key false)

section Positions

variable {α β : Type} {f : α → Option β} {l : List α}

theorem getElem?_filterMap (h : ∀ a ∈ l, (f a).isSome = true) (i : Nat) :
    (l.filterMap f)[i]? = l[i]?.bind f := by
  induction l generalizing i with
  | nil => rfl
  | cons a l ih =>
    obtain ⟨b, hb⟩ := Option.isSome_iff_exists.mp (h a List.mem_cons_self)
    rw [List.filterMap_cons_some hb]
    cases i with
    | zero => rw [List.getElem?_cons_zero, List.getElem?_cons_zero, Option.bind_some, hb]
    | succ i =>
      rw [List.getElem?_cons_succ, List.getElem?_cons_succ]
      exact ih (fun a ha => h a (List.mem_cons_of_mem _ ha)) i

theorem take_filterMap (h : ∀ a ∈ l, (f a).isSome = true) (i : Nat) :
    (l.filterMap f).take i = (l.take i).filterMap f := by
  induction l generalizing i with
  | nil => rw [List.take_nil, List.filterMap_nil, List.take_nil]
  | cons a l ih =>
    obtain ⟨b, hb⟩ := Option.isSome_iff_exists.mp (h a List.mem_cons_self)
    cases i with
    | zero => rfl
    | succ i =>
      rw [List.filterMap_cons_some hb, List.take_succ_cons, List.take_succ_cons,
        List.filterMap_cons_some hb, ih fun a ha => h a (List.mem_cons_of_mem _ ha)]

end Positions

variable {bufferFrom} {run : Run}

theorem OnlyHalves.timed (h : OnlyHalves bufferFrom run) :
    ∀ m ∈ run, (timedArrival bufferFrom m).isSome = true := by
  intro m hm
  unfold timedArrival
  rw [Option.isSome_map]
  exact h m hm

theorem brings_iff (h : OnlyHalves bufferFrom run) {i now : Nat} {key : CorrelationKey}
    {half : CorrelationHalf} :
    Brings bufferFrom run i now key half ↔
      (history bufferFrom run)[i]? = some (now, .arrive key half) := by
  unfold history Brings
  rw [getElem?_filterMap h.timed]
  constructor
  · rintro ⟨o, ho, harrive⟩
    rw [ho, Option.bind_some]
    unfold timedArrival
    rw [harrive, Option.map_some]
  · intro hi
    obtain ⟨⟨t, o⟩, ho, harrive⟩ := Option.bind_eq_some_iff.mp hi
    obtain ⟨e, he, hpair⟩ := Option.map_eq_some_iff.mp harrive
    cases hpair
    exact ⟨o, ho, he⟩

theorem answer_returned (h : OnlyHalves bufferFrom run) (i : Nat) :
    answer bufferFrom run i =
      (PairJoin.returned CORRELATION_TTL_MS (history bufferFrom run) i).map
        fun r => combined r.2.1 r.2.2 := by
  have htake : (history bufferFrom run).take i = history bufferFrom (run.take i) :=
    take_filterMap h.timed i
  have hat : (history bufferFrom run)[i]? = run[i]?.bind (timedArrival bufferFrom) :=
    getElem?_filterMap h.timed i
  unfold answer PairJoin.returned
  rw [htake, hat]
  cases hm : run[i]? with
  | none => rfl
  | some m =>
    obtain ⟨now, o⟩ := m
    obtain ⟨e, he⟩ := Option.isSome_iff_exists.mp (h (now, o) (List.mem_of_getElem? hm))
    dsimp only at he
    have htimed : timedArrival bufferFrom (now, o) = some (now, e) := by
      unfold timedArrival
      rw [he, Option.map_some]
    rw [Option.bind_some, Option.bind_some, htimed]
    cases e with
    | arrive key half =>
      rw [returnedEvent_arrive he]
      dsimp only
      rw [Option.map_map]
      rfl
    | sweep =>
      cases arrival_sweep he
      rfl

theorem history_solo (hone : OnePerId bufferFrom run) :
    PairJoin.Solo (history bufferFrom run) := by
  refine List.pairwise_filterMap.mpr ((List.pairwise_filterMap.mp hone).imp ?_)
  rintro ⟨now, o⟩ ⟨now', o'⟩ hne e he e' he' key x y hx hy hkind
  obtain ⟨a, ha, rfl⟩ := Option.map_eq_some_iff.mp he
  obtain ⟨a', ha', rfl⟩ := Option.map_eq_some_iff.mp he'
  dsimp only at ha ha' hx hy
  have hside : o.side bufferFrom = some (key, x.isLeft) := by
    unfold Occurrence.side
    rw [ha, hx]
  have hside' : o'.side bufferFrom = some (key, x.isLeft) := by
    unfold Occurrence.side
    rw [ha', hy, hkind]
  exact hne _ hside _ hside' rfl

theorem history_clock (hclock : run.Pairwise fun m m' => m.1 ≤ m'.1) :
    (history bufferFrom run).Pairwise fun e e' => e.1 ≤ e'.1 := by
  refine List.pairwise_filterMap.mpr (hclock.imp ?_)
  intro m m' hle e he e' he'
  obtain ⟨x, -, rfl⟩ := Option.map_eq_some_iff.mp he
  obtain ⟨y, -, rfl⟩ := Option.map_eq_some_iff.mp he'
  exact hle

theorem answer_isSome (h : OnlyHalves bufferFrom run) {i now : Nat} {key : CorrelationKey}
    {x : CorrelationHalf} (hx : Brings bufferFrom run i now key x)
    (ha : (answer bufferFrom run i).isSome) :
    ∃ p, PairJoin.returned CORRELATION_TTL_MS (history bufferFrom run) i = some (key, p) := by
  rw [answer_returned h, Option.isSome_map] at ha
  obtain ⟨⟨k, p⟩, hp⟩ := Option.isSome_iff_exists.mp ha
  obtain ⟨now', y, hy, -⟩ := PairJoin.returned_eq hp
  rw [(brings_iff h).mp hx] at hy
  cases hy
  exact ⟨p, hp⟩

theorem bringsKind_iff (h : OnlyHalves bufferFrom run) (key : CorrelationKey) (isAck : Bool) :
    BringsKind bufferFrom run key isAck ↔
      PairJoin.Arrives (history bufferFrom run) key isAck := by
  constructor
  · rintro ⟨i, now, half, hkind, hbrings⟩
    exact ⟨now, half, hkind, List.mem_of_getElem? ((brings_iff h).mp hbrings)⟩
  · rintro ⟨now, half, hkind, hmem⟩
    obtain ⟨i, hi⟩ := List.mem_iff_getElem?.mp hmem
    exact ⟨i, now, half, hkind, (brings_iff h).mpr hi⟩

/-- Acknowledgements and uplinks are joined exactly once, in whatever order they come and
wherever the garbage collection falls. -/
theorem correlation_exactlyOnce (bufferFrom : JsValue → Js (List Calin.Byte)) (run : Run)
    (hhalves : OnlyHalves bufferFrom run) (hclock : run.Pairwise fun m m' => m.1 ≤ m'.1)
    (hone : OnePerId bufferFrom run) : Correlates bufferFrom run := by
  have hsolo := history_solo hone
  have hsorted : (history bufferFrom run).Pairwise fun e e' => e.1 ≤ e'.1 := history_clock hclock
  refine ⟨?_, ?_, ?_, ?_⟩
  · intro i j now now' key x y hx hy hi hj
    obtain ⟨p, hp⟩ := answer_isSome hhalves hx hi
    obtain ⟨p', hp'⟩ := answer_isSome hhalves hy hj
    exact PairJoin.returned_once hsolo hp hp'
  · intro i j now now' key q u hq hu hle hle'
    rw [answer_returned hhalves, answer_returned hhalves]
    rw [brings_iff hhalves] at hq hu
    rcases Nat.lt_trichotomy i j with hij | rfl | hji
    · obtain ⟨hfirst, p, hmeet, hsecond⟩ :=
        PairJoin.returned_second hsolo hsorted hq hu hij hle'
      cases hmeet
      rw [Nat.min_eq_left (Nat.le_of_lt hij), Nat.max_eq_right (Nat.le_of_lt hij), hfirst, hsecond]
      exact ⟨rfl, rfl⟩
    · rw [hq] at hu
      cases hu
    · obtain ⟨hfirst, p, hmeet, hsecond⟩ :=
        PairJoin.returned_second hsolo hsorted hu hq hji hle
      cases hmeet
      rw [Nat.min_eq_right (Nat.le_of_lt hji), Nat.max_eq_left (Nat.le_of_lt hji), hfirst, hsecond]
      exact ⟨rfl, rfl⟩
  · intro i e he
    rw [answer_returned hhalves] at he
    obtain ⟨⟨key, q, u⟩, hr, rfl⟩ := Option.map_eq_some_iff.mp he
    obtain ⟨j, j', now, now', hj, hj', hi⟩ := PairJoin.returned_halves hr
    exact ⟨j, j', now, now', key, q, u, (brings_iff hhalves).mpr hj, (brings_iff hhalves).mpr hj',
      hi, rfl⟩
  · intro hcollected key
    rw [correlations_entries, bringsKind_iff hhalves, bringsKind_iff hhalves]
    unfold entries
    rw [Option.isSome_map]
    refine PairJoin.table_isSome_iff hsolo ?_ key
    intro e he hs
    obtain ⟨⟨now, o⟩, hm, harrive⟩ := List.mem_filterMap.mp he
    obtain ⟨e', he', rfl⟩ := Option.map_eq_some_iff.mp harrive
    cases hs
    exact hcollected _ hm (arrival_sweep he')

section Example

/-- The value of a character of base64. -/
def sextet (c : Char) : Option Nat :=
  if c.isUpper then some (c.toNat - 65)
  else if c.isLower then some (c.toNat - 71)
  else if c.isDigit then some (c.toNat + 4)
  else if c = '+' then some 62
  else if c = '/' then some 63
  else none

def base64 (text : List Char) : List Calin.Byte :=
  match text with
  | a :: b :: c :: d :: text =>
    match sextet a, sextet b, sextet c, sextet d with
    | some x, some y, some z, some w =>
      UInt8.ofNat (4 * x + y / 16) :: UInt8.ofNat (16 * y + z / 4) :: UInt8.ofNat (64 * z + w) ::
        base64 text
    | some x, some y, some z, none =>
      [UInt8.ofNat (4 * x + y / 16), UInt8.ofNat (16 * y + z / 4)]
    | some x, some y, none, none => [UInt8.ofNat (4 * x + y / 16)]
    | _, _, _, _ => []
  | _ => []

/-- `Buffer.from(_, 'base64')` of padded base64, and of values it refuses. -/
def base64Buffer (value : JsValue) : Js (List Calin.Byte) :=
  match value with
  | .str text => pure (base64 text)
  | _ => throw .typeError

/-- A body from the device with these further members. -/
def bodyOf (devEui : String) (members : List (String × JsValue)) : JsValue :=
  .obj (("deviceInfo".toList, .obj [("devEui".toList, textValue devEui)]) ::
    members.map fun m => (m.1.toList, m.2))

def ackBody (devEui : String) (id : List (String × JsValue)) : JsValue :=
  bodyOf devEui (id ++ [("queueItemId", textValue "q-1"), ("acknowledged", .bool true)])

def upBody (devEui : String) (id : List (String × JsValue)) : JsValue :=
  bodyOf devEui (id ++ [("data", textValue "aCM2MwNwBGjAATTIFg==")])

/-- The uplink comes as late as it may, and the garbage collection just before it. -/
def lateRun : Run :=
  [(0, .posted 0 (ackBody "0000047003333771" [("deduplicationId", textValue "d-1")]) (some "ack")),
    (10000, .collected),
    (10000, .posted 1 (upBody "0000047003333771" [("deduplicationId", textValue "d-1")])
      (some "up"))]

theorem lateRun_correlates : Correlates base64Buffer lateRun :=
  correlation_exactlyOnce base64Buffer lateRun (by unfold OnlyHalves; decide +kernel) (by decide)
    (by unfold OnePerId; decide +kernel)

end Example

end Chirpstack

end DeviceMessaging
