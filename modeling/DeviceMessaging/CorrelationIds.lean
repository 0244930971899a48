import DeviceMessaging.Provenance
import DeviceMessaging.Serial

namespace DeviceMessaging

open Effect

/-- A lookup of `c` reads the index key of a request made under another id. -/
def Aliases (c : String) (dto : CreateDeviceMessage) : Prop :=
  dto.correlationId ≠ some c ∧ ∃ key ∈ correlationIndexKeys c, dto.indexKey = some key

instance (c : String) (dto : CreateDeviceMessage) : Decidable (Aliases c dto) :=
  inferInstanceAs (Decidable (_ ∧ _))

/-- No enqueue of the run aliases `c`. -/
def Unaliased (c : String) (cmd : RedisCmd) (_ : Store) : Prop :=
  ∀ dto q, cmd = .enqueueDeviceMessage dto q → ¬ Aliases c dto

theorem mem_correlationIndexKeys {c key : String} :
    key ∈ correlationIndexKeys c ↔ ∃ p, key = indexCorrelationId c p := by
  constructor
  · intro h
    obtain ⟨p, -, rfl⟩ := List.mem_map.mp h
    exact ⟨p, rfl⟩
  · rintro ⟨p, rfl⟩
    refine List.mem_map.mpr ⟨p, ?_, rfl⟩
    cases p with
    | none => exact List.mem_cons_self
    | some p => cases p <;> decide

theorem phaseSuffix_length (p : Phase) : (phaseSuffix (some p)).toList.length = 4 := by
  cases p <;> rfl

/-- The two ways an id with a phase suffix in its text meets the suffix that is
appended for a phase. -/
theorem aliases_iff {c d : String} {dto : CreateDeviceMessage} (hd : dto.correlationId = some d)
    (hne : d ≠ c) :
    Aliases c dto ↔ (dto.phase = none ∧ ∃ p : Phase, d = c ++ phaseSuffix (some p)) ∨
      ∃ p : Phase, dto.phase = some p ∧ c = d ++ phaseSuffix (some p) := by
  have hkey : dto.indexKey = some (d ++ phaseSuffix dto.phase) := by
    unfold CreateDeviceMessage.indexKey correlationKey
    rw [hd]
    rfl
  have hiff : Aliases c dto ↔ ∃ q, d ++ phaseSuffix dto.phase = c ++ phaseSuffix q := by
    unfold Aliases
    rw [hkey, hd]
    constructor
    · rintro ⟨-, key, hk, he⟩
      obtain ⟨q, rfl⟩ := mem_correlationIndexKeys.mp hk
      exact ⟨q, Option.some.inj he⟩
    · rintro ⟨q, he⟩
      exact ⟨fun h => hne (Option.some.inj h), _, mem_correlationIndexKeys.mpr ⟨q, rfl⟩,
        congrArg some he⟩
  rw [hiff]
  constructor
  · rintro ⟨q, he⟩
    cases hp : dto.phase with
    | none =>
      rw [hp] at he
      cases q with
      | none => exact absurd (by simpa [phaseSuffix] using he) hne
      | some q => exact .inl ⟨rfl, q, by simpa [phaseSuffix] using he⟩
    | some p =>
      rw [hp] at he
      cases q with
      | none => exact .inr ⟨p, rfl, by simpa [phaseSuffix] using he.symm⟩
      | some q =>
        have hl := congrArg String.toList he
        rw [String.toList_append, String.toList_append] at hl
        have hlen : (phaseSuffix (some p)).toList.length = (phaseSuffix (some q)).toList.length := by
          rw [phaseSuffix_length, phaseSuffix_length]
        exact absurd (String.toList_injective (List.append_inj_left' hl hlen)) hne
  · rintro (⟨hp, p, rfl⟩ | ⟨p, hp, rfl⟩)
    · exact ⟨some p, by rw [hp]; simp [phaseSuffix]⟩
    · exact ⟨none, by rw [hp]; simp [phaseSuffix]⟩

/-- What happens to the store between two commands of a handler: commands of
others, and expiry. -/
inductive Elsewhere (p : RedisCmd → Store → Prop) (s : Store) : Store → Prop
  | command (c : RedisCmd) (i : MessageId) (hp : p c s) (hf : c.Fresh i s) :
    Elsewhere p s (s.exec c i).2
  | disturb (d : Disturbance) : Elsewhere p s (s.disturb d)

/-- The message a command removes, claims or purges, or hands over to be. -/
def Cmd.takes (c : Cmd) : Option MessageId :=
  match c with
  | .redis (.removeMessageFromQueue _ id) => some id
  | .redis (.messageFullCleanup message _) => some message.id
  | .spawn (.cancelMessage message) => some message.id
  | _ => none

/-- The store of a run without an alias of `c`, later than a list of requests. -/
structure Apart (c : String) (es : List (MessageId × CreateDeviceMessage)) (s : Store) : Prop
    extends Provenance s where
  apart : ∀ e ∈ s.enqueued, ¬ Aliases c e.2
  later : ∀ e ∈ es, e ∈ s.enqueued

variable {c : String} {es : List (MessageId × CreateDeviceMessage)} {s : Store} {w w' : World}
  {svc : Service}

theorem unaliased_exec {cmd : RedisCmd} {i : MessageId} (hs : ∀ e ∈ s.enqueued, ¬ Aliases c e.2)
    (hp : Unaliased c cmd s) : ∀ e ∈ (s.exec cmd i).2.enqueued, ¬ Aliases c e.2 := by
  cases cmd with
  | enqueueDeviceMessage dto q =>
    intro e he
    rcases List.mem_append.mp he with he | he
    · exact hs e he
    · rw [List.mem_singleton.mp he]
      exact hp dto q rfl
  | _ => exact hs

theorem Apart.exec {cmd : RedisCmd} {i : MessageId} (hs : Apart c es s) (hp : Unaliased c cmd s)
    (hf : cmd.Fresh i s) : Apart c es (s.exec cmd i).2 where
  toProvenance := provenance_exec hs.toProvenance hf
  apart := unaliased_exec hs.apart hp
  later e he := enqueued_exec s cmd i e (hs.later e he)

theorem Apart.elsewhere {t : Store} (hs : Apart c es s)
    (ht : Relation.ReflTransGen (Elsewhere (Unaliased c)) s t) : Apart c es t := by
  induction ht with
  | refl => exact hs
  | tail _ hstep ih =>
    cases hstep with
    | command cmd i hp hf => exact ih.exec hp hf
    | disturb d =>
      refine ⟨provenance_disturb ih.toProvenance d, ?_, ?_⟩
      · cases d <;> exact ih.apart
      · cases d <;> exact ih.later

/-- A message under that id was requested with the correlation id. -/
def Ours (c : String) (es : List (MessageId × CreateDeviceMessage)) (id : MessageId) : Prop :=
  ∃ dto, (id, dto) ∈ es ∧ dto.correlationId = some c

theorem Ours.mono {es' : List (MessageId × CreateDeviceMessage)} {id : MessageId}
    (ho : Ours c es id) (he : ∀ e ∈ es, e ∈ es') : Ours c es' id := by
  obtain ⟨dto, hdto, hc⟩ := ho
  exact ⟨dto, he _ hdto, hc⟩

/-- What a lookup of `c` may hand on. -/
def Found (c : String) (es : List (MessageId × CreateDeviceMessage)) (message : DeviceMessage) :
    Prop :=
  message.correlationId = some c ∧ Ours c es message.id

theorem Found.mono {es' : List (MessageId × CreateDeviceMessage)} {message : DeviceMessage}
    (hf : Found c es message) (he : ∀ e ∈ es, e ∈ es') : Found c es' message :=
  ⟨hf.1, hf.2.mono he⟩

/-- A load of one index value: it changes nothing, returns what loads, and throws
only on a hash that does not. -/
theorem readIndexed_reads {polls : PollRule} (id : MessageId) :
    (readIndexed id (w.store.redis.messages id)).wp (calm polls)
      (fun loaded w' => w' = w ∧ ∀ h message, id ≠ "" → w.store.redis.messages id = some h →
        deserializeMessage id h = .ok message → loaded = some message)
      (fun _ _ => ∃ h, w.store.redis.messages id = some h ∧ ¬ h.Decodes) w := by
  unfold readIndexed messageIdFromKey
  by_cases hne : id = ""
  · simp only [Option.filter, hne, ne_eq, not_true_eq_false, decide_false, Bool.false_eq_true,
      ↓reduceIte, Prog.wp_pure]
    exact ⟨trivial, fun _ _ he => he.elim⟩
  · simp only [Option.filter, ne_eq, hne, not_false_eq_true, decide_true, ↓reduceIte]
    unfold readHash readPicked
    cases hh : w.store.redis.messages id with
    | none => exact ⟨rfl, fun h m _ he => by cases he⟩
    | some h =>
      simp only [Option.map_some]
      cases hm : deserializeMessage id h with
      | ok m =>
        refine ⟨rfl, fun h' m' _ he hm' => ?_⟩
        cases he
        exact congrArg some (Except.ok.inj (hm.symm.trans hm'))
      | error e =>
        refine ⟨h, rfl, fun hd => ?_⟩
        obtain ⟨m, hm'⟩ := deserializeMessage_ok id hd
        cases hm.symm.trans hm'

/-- The same for the pipelined loads of a lookup. -/
theorem loadIndexed_reads {polls : PollRule} (keys : List (Option MessageId)) :
    (loadIndexed keys).wp (calm polls)
      (fun messages w' => w' = w ∧ ∀ id h message, some id ∈ keys → id ≠ "" →
        w.store.redis.messages id = some h → deserializeMessage id h = .ok message →
        message ∈ messages)
      (fun _ _ => ∃ id h, some id ∈ keys ∧ w.store.redis.messages id = some h ∧ ¬ h.Decodes) w := by
  induction keys with
  | nil => exact ⟨rfl, fun _ _ _ hk => nomatch hk⟩
  | cons key rest ih =>
    cases key with
    | none =>
      refine Prog.wp_mono ih (fun messages w' h => ⟨h.1, fun id g m hk => ?_⟩) fun _ _ h => ?_
      · exact h.2 id g m (by simpa using hk)
      · obtain ⟨id, g, hk, h⟩ := h
        exact ⟨id, g, List.mem_cons_of_mem _ hk, h⟩
    | some y =>
      unfold loadIndexed
      rw [Prog.wp_bind, Prog.wp_tryCatch, wp_hgetall, Prog.wp_bind]
      refine Prog.wp_mono (readIndexed_reads y) (fun loaded w' h => ?_) fun _ _ h => ?_
      · obtain ⟨rfl, hl⟩ := h
        rw [Prog.wp_bind]
        refine Prog.wp_mono ih (fun messages w'' h => ?_) fun _ _ h => ?_
        · obtain ⟨rfl, hrest⟩ := h
          refine ⟨rfl, fun id g m hk hne hg hm => ?_⟩
          rcases List.mem_cons.mp hk with hy | hk
          · cases hy
            exact List.mem_append_left _ (by simp [hl g m hne hg hm])
          · exact List.mem_append_right _ (hrest id g m hk hne hg hm)
        · obtain ⟨id, g, hk, h⟩ := h
          exact ⟨id, g, List.mem_cons_of_mem _ hk, h⟩
      · obtain ⟨g, hg, hd⟩ := h
        exact ⟨y, g, List.mem_cons_self, hg, hd⟩

/-- After an enqueue that aliases `c`, what a lookup of `c` returns is of another id. -/
theorem aliased_enqueue_found {polls : PollRule} {dto : CreateDeviceMessage} {q : QueueKey}
    {i : MessageId} (hs : Provenance w.store) (ha : Aliases c dto)
    (hf : (RedisCmd.enqueueDeviceMessage dto q).Fresh i w.store) :
    (getAllMessagesForCorrelationId c).wp (calm polls)
      (fun messages _ => ∃ message ∈ messages, message.correlationId ≠ some c)
      (fun _ _ => True) (w.after (.enqueueDeviceMessage dto q) i) := by
  obtain ⟨hne, hnew⟩ := hf rfl
  obtain ⟨hc, key, hkey, hdto⟩ := ha
  have hnone : w.store.redis.messages i = none := by
    by_contra hn
    exact hnew (hs.named i hn)
  have hh : (w.after (.enqueueDeviceMessage dto q) i).store.redis.messages i =
      some (serializeCreateDeviceMessage dto) := by
    refine (congrFun (enqueue_messages i dto q w.store.redis) i).trans ?_
    rw [Function.update_self, hnone, Option.getD_none, MessageHash.write_empty]
  have hi : (w.after (.enqueueDeviceMessage dto q) i).store.redis.correlations key = some i :=
    enqueue_correlations.mpr (.inl ⟨hdto, rfl⟩)
  obtain ⟨message, hm⟩ := deserializeMessage_ok i (holdsCreate_serialize dto).decodes
  unfold getAllMessagesForCorrelationId
  rw [Prog.wp_bind, wp_mgetCorrelationIndexes]
  refine Prog.wp_mono (loadIndexed_reads _) (fun messages w' hw' => ⟨message,
    hw'.2 i _ message (List.mem_map.mpr ⟨key, hkey, hi⟩) hne hh hm, ?_⟩) fun _ _ _ => trivial
  rw [(deserializeMessage_fields hm).2.2.2.2.2.1]
  exact fun he => hc ((truthy_of_ne dto.correlationId_ne).symm.trans he)

/-- A request whose phase goes into its index key. -/
def phasedCreate : CreateDeviceMessage :=
  { sampleCreate with phase := some .A, correlationId := some "job-1", correlationId_ne := by decide }

def phasedEnqueue : List (Choice Handler Oracle Disturbance) :=
  [.start (.enqueue phasedCreate), .turn 0 { id := sampleId }]

end DeviceMessaging
