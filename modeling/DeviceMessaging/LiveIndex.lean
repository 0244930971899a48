import DeviceMessaging.CorrelationIds
import DeviceMessaging.ProperRuns

namespace DeviceMessaging

open Effect

/-- The key a stored message is indexed under. -/
def MessageHash.indexKey (h : MessageHash) : Option String :=
  correlationKey h.correlationId h.phase

/-- No stored message but that one has the index key. -/
def Store.KeyFree (s : Store) (key : Option String) (id : MessageId) : Prop :=
  ∀ y h, y ≠ id → s.redis.messages y = some h → h.indexKey = key → key = none

/-- An enqueue or a purge that writes an index key finds no other stored message
with that key. -/
def IndexFree (c : RedisCmd) (s : Store) : Prop :=
  match c with
  | .enqueueDeviceMessage dto _ => ∀ y h, s.redis.messages y = some h →
      h.indexKey = dto.indexKey → dto.indexKey = none
  | .messageFullCleanup m _ => s.KeyFree (correlationKey m.correlationId m.phase) m.id
  | _ => True

/-- The correlation index and the stored messages agree. -/
structure LiveIndex (s : Store) : Prop where
  complete : ∀ y h z, s.redis.messages y = some h → h.indexKey = some z →
    s.redis.correlations z = some y
  sound : ∀ z y, s.redis.correlations z = some y → ∃ h dto, s.redis.messages y = some h ∧
    (y, dto) ∈ s.enqueued ∧ h.HoldsCreate dto ∧ dto.indexKey = some z
  named : ∀ y z, s.redis.correlations z = some y → y ≠ ""

variable {s : Store} {c : RedisCmd} {i : MessageId} {h : MessageHash} {svc : Service}

theorem liveIndex_empty : LiveIndex .empty where
  complete _ _ _ h := nomatch h
  sound _ _ h := nomatch h
  named _ _ h := nomatch h

theorem MessageHash.HoldsCreate.indexKey {dto : CreateDeviceMessage} (hc : h.HoldsCreate dto) :
    h.indexKey = dto.indexKey := by
  have hcorr := congrArg MessageHash.correlationId hc.fields
  have hphase := congrArg MessageHash.phase hc.fields
  dsimp only [immutable, serializeCreateDeviceMessage] at hcorr hphase
  rw [MessageHash.indexKey, hcorr, hphase]
  rfl

theorem indexKey_of_immutable {h h' : MessageHash} (hi : h'.immutable = h.immutable) :
    h'.indexKey = h.indexKey := by
  have hcorr := congrArg MessageHash.correlationId hi
  have hphase := congrArg MessageHash.phase hi
  dsimp only [MessageHash.immutable] at hcorr hphase
  rw [MessageHash.indexKey, hcorr, hphase]
  rfl

/-- A command that rewrites what changes of one hash, and no index, keeps the index. -/
theorem LiveIndex.rewrite {t : Store} {m : MessageId} {g g' : MessageHash} (hs : LiveIndex s)
    (hg : s.redis.messages m = some g)
    (hm : t.redis.messages = Function.update s.redis.messages m (some g'))
    (hi : g'.immutable = g.immutable) (hold : ∀ dto, g.HoldsCreate dto → g'.HoldsCreate dto)
    (hc : t.redis.correlations = s.redis.correlations) (he : ∀ e ∈ s.enqueued, e ∈ t.enqueued) :
    LiveIndex t where
  complete y h z hy hz := by
    rw [hm] at hy
    rw [hc]
    rcases update_some_cases hy with ⟨rfl, rfl⟩ | ⟨-, hy⟩
    · exact hs.complete _ g z hg ((indexKey_of_immutable hi).symm.trans hz)
    · exact hs.complete y h z hy hz
  sound z y hz := by
    rw [hc] at hz
    obtain ⟨h, dto, hh, hdto, hcr, hk⟩ := hs.sound z y hz
    rw [hm]
    by_cases e : y = m
    · subst e
      rw [hg] at hh
      cases hh
      exact ⟨g', dto, Function.update_self .., he _ hdto, hold dto hcr, hk⟩
    · exact ⟨h, dto, by rwa [Function.update_of_ne e], he _ hdto, hcr, hk⟩
  named y z hz := hs.named y z (hc ▸ hz)

theorem LiveIndex.same {t : Store} (hs : LiveIndex s) (hm : t.redis.messages = s.redis.messages)
    (hc : t.redis.correlations = s.redis.correlations) (he : ∀ e ∈ s.enqueued, e ∈ t.enqueued) :
    LiveIndex t where
  complete y h z hy hz := hc ▸ hs.complete y h z (hm ▸ hy) hz
  sound z y hz := by
    obtain ⟨h, dto, hh, hdto, hcr, hk⟩ := hs.sound z y (hc ▸ hz)
    exact ⟨h, dto, hm ▸ hh, he _ hdto, hcr, hk⟩
  named y z hz := hs.named y z (hc ▸ hz)

theorem LiveIndex.enqueue {dto : CreateDeviceMessage} {q : QueueKey} (hs : LiveIndex s)
    (hprov : Provenance s) (hf : (RedisCmd.enqueueDeviceMessage dto q).Fresh i s)
    (hp : IndexFree (.enqueueDeviceMessage dto q) s) :
    LiveIndex (s.exec (.enqueueDeviceMessage dto q) i).2 := by
  obtain ⟨hne, hnew⟩ := hf rfl
  have hnone : s.redis.messages i = none := by
    by_contra hn
    exact hnew (hprov.named i hn)
  have hm : (s.exec (.enqueueDeviceMessage dto q) i).2.redis.messages =
      Function.update s.redis.messages i (some (serializeCreateDeviceMessage dto)) := by
    refine (enqueue_messages i dto q s.redis).trans ?_
    rw [hnone, Option.getD_none, MessageHash.write_empty]
  have hcr := holdsCreate_serialize dto
  refine ⟨fun y h z hy hz => ?_, fun z y hz => ?_, fun y z hz => ?_⟩
  · rw [hm] at hy
    rcases update_some_cases hy with ⟨rfl, rfl⟩ | ⟨hyi, hy⟩
    · exact enqueue_correlations.mpr (.inl ⟨hcr.indexKey.symm.trans hz, rfl⟩)
    · refine enqueue_correlations.mpr (.inr ⟨fun he => ?_, hs.complete y h z hy hz⟩)
      have hkey := hp y h hy (hz.trans he.symm)
      rw [CreateDeviceMessage.indexKey, he] at hkey
      cases hkey
  · rcases enqueue_correlations.mp hz with ⟨hk, rfl⟩ | ⟨-, hz⟩
    · exact ⟨_, dto, by rw [hm, Function.update_self], by simp [Store.exec, Store.note], hcr, hk⟩
    · obtain ⟨h, dto', hh, hdto, hcr', hk⟩ := hs.sound z y hz
      have hyi : y ≠ i := by
        rintro rfl
        rw [hnone] at hh
        cases hh
      refine ⟨h, dto', ?_, enqueued_exec _ _ _ _ hdto, hcr', hk⟩
      rwa [hm, Function.update_of_ne hyi]
  · rcases enqueue_correlations.mp hz with ⟨-, rfl⟩ | ⟨-, hz⟩
    · exact hne
    · exact hs.named y z hz

theorem LiveIndex.purge {m : DeviceMessage} {qs : List QueueKey} (hs : LiveIndex s)
    (hprov : Provenance s) (hm : Requested s.enqueued m)
    (hp : IndexFree (.messageFullCleanup m qs) s) :
    LiveIndex (s.exec (.messageFullCleanup m qs) i).2 := by
  have hmsg : (s.exec (.messageFullCleanup m qs) i).2.redis.messages =
      Function.update s.redis.messages m.id none := cleanup_messages m qs s.redis
  obtain ⟨dto, hdto, ho⟩ := hm
  have hkey : correlationKey m.correlationId m.phase = dto.indexKey := by
    rw [ho.correlationId, ho.phase]
    rfl
  refine ⟨fun y h z hy hz => ?_, fun z y hz => ?_, fun y z hz => ?_⟩
  · rw [hmsg] at hy
    obtain ⟨hne, hy⟩ := update_none_cases hy
    refine cleanup_correlations.mpr ⟨fun he => ?_, hs.complete y h z hy hz⟩
    have hnone := hp y h hne hy (hz.trans he.symm)
    rw [he] at hnone
    cases hnone
  · obtain ⟨hk, hz⟩ := cleanup_correlations.mp hz
    obtain ⟨h, dto', hh, hdto', hcr, hk'⟩ := hs.sound z y hz
    have hne : y ≠ m.id := by
      rintro rfl
      have he := hprov.unique _ hdto _ hdto' rfl
      cases he
      exact hk (hkey.trans hk')
    exact ⟨h, dto', by rwa [hmsg, Function.update_of_ne hne], hdto', hcr, hk'⟩
  · exact hs.named y z (cleanup_correlations.mp hz).2

theorem LiveIndex.retry {a : EnterRetryMulti} (hs : LiveIndex s) :
    LiveIndex (s.exec (.enterRetry a) i).2 := by
  have hm : (s.exec (.enterRetry a) i).2.redis.messages = _ := enterRetry_messages a s.redis
  have hc : (s.exec (.enterRetry a) i).2.redis.correlations = s.redis.correlations :=
    enterRetry_correlations
  cases hh : s.redis.messages a.messageId with
  | some h =>
    rw [hh, Option.getD_some] at hm
    refine hs.rewrite hh hm rfl (fun dto hcr => ?_) hc fun _ he => he
    exact hcr.evolve rfl (.inr (by simp [retryHash, setRetry]))
      (.inr (by simp [retryHash, setRetry]))
  | none =>
    rw [hh, Option.getD_none] at hm
    refine ⟨fun y h z hy hz => ?_, fun z y hz => ?_, fun y z hz => hs.named y z (hc ▸ hz)⟩
    · rw [hm] at hy
      rcases update_some_cases hy with ⟨rfl, rfl⟩ | ⟨-, hy⟩
      · cases hz
      · exact hc ▸ hs.complete y h z hy hz
    · obtain ⟨h, dto, hy, hdto, hcr, hk⟩ := hs.sound z y (hc ▸ hz)
      have hne : y ≠ a.messageId := by
        rintro rfl
        rw [hh] at hy
        cases hy
      exact ⟨h, dto, by rwa [hm, Function.update_of_ne hne], hdto, hcr, hk⟩

theorem liveIndex_exec (hs : LiveIndex s) (hprov : Provenance s)
    (hc : Cmd.Proper svc s.enqueued (.redis c)) (hp : IndexFree c s) (hf : c.Fresh i s) :
    LiveIndex (s.exec c i).2 := by
  have he := enqueued_exec s c i
  cases c with
  | enqueueDeviceMessage dto q => exact hs.enqueue hprov hf hp
  | messageFullCleanup m qs => exact hs.purge hprov hc hp
  | enterRetry a => exact hs.retry
  | moveMessageBetweenQueues a =>
    have hk := correlations_keep (s := s) (c := .moveMessageBetweenQueues a) (i := i)
      (fun _ _ h => by cases h) (fun _ _ h => by cases h)
    rcases move_messages a s.redis with hm | ⟨h, hh, -, hm⟩
    · exact hs.same hm hk he
    · obtain ⟨hi, -, -⟩ := movedHash_immutable a h
      exact hs.rewrite hh hm hi movedHash_holds hk he
  | fetchNextMessageInQueueAndMove a =>
    have hk := correlations_keep (s := s) (c := .fetchNextMessageInQueueAndMove a) (i := i)
      (fun _ _ h => by cases h) (fun _ _ h => by cases h)
    rcases fetch_messages a s.redis with hm | ⟨m, h, hh, -, hm⟩
    · exact hs.same hm hk he
    · refine hs.rewrite hh hm rfl (fun dto hcr => ?_) hk he
      exact hcr.evolve rfl (.inr (by simp [pickedHash])) (.inl rfl)
  | zaddXx q score m =>
    cases score <;> exact hs.same rfl rfl he
  | lockQueueForTimeMs q ms =>
    refine hs.same ?_ (correlations_keep (fun _ _ h => by cases h) (fun _ _ h => by cases h)) he
    simp only [Store.exec, RedisCmd.run, lockQueueForTimeMs]
    split <;> rfl
  | sremRateLimit k ids =>
    exact hs.same (validateAndClean_messages k ids) (correlations_keep (fun _ _ h => by cases h) (fun _ _ h => by cases h)) he
  | _ => exact hs.same rfl rfl he

theorem reached_liveIndex {weather : Weather} (hw : weather.expiry = false) {x : Process}
    (hx : Reached svc weather (OnCommand IndexFree) x) :
    LiveIndex x.world.store ∧ Provenance x.world.store := by
  refine ⟨proper_invariant liveIndex_empty (fun s c i hs hprov hc hp hf =>
    liveIndex_exec hs hprov hc hp hf) (fun s d hd hs => ?_) hx, reached_provenance hx⟩
  cases d with
  | elapse ms => exact hs.same rfl rfl fun _ he => he
  | _ => exact absurd (hw.symm.trans hd) (by decide)

variable {w : World} {polls : PollRule} {correlation : String}

theorem LiveIndex.decodes (hs : LiveIndex s) {z : String} {y : MessageId}
    (hz : s.redis.correlations z = some y) (hy : s.redis.messages y = some h) : h.Decodes := by
  obtain ⟨h', dto, hh, -, hcr, -⟩ := hs.sound z y hz
  cases hy.symm.trans hh
  exact hcr.decodes

/-- A lookup returns, and every stored message of its id is among what it returns. -/
theorem getAll_complete (hs : LiveIndex w.store) :
    (getAllMessagesForCorrelationId correlation).wp (calm polls)
      (fun messages w' => w' = w ∧ ∀ id h, w.store.redis.messages id = some h →
        h.correlationId = some correlation →
        ∃ message ∈ messages, deserializeMessage id h = .ok message)
      NoThrow w := by
  unfold getAllMessagesForCorrelationId
  rw [Prog.wp_bind, wp_mgetCorrelationIndexes]
  refine Prog.wp_mono (loadIndexed_reads _) (fun messages w' hw' => ?_) fun _ _ h => ?_
  · refine ⟨hw'.1, fun id h hh hc => ?_⟩
    have hkey : h.indexKey = some (indexCorrelationId correlation h.phase) := by
      rw [MessageHash.indexKey, hc]
      rfl
    have hz := hs.complete id h _ hh hkey
    obtain ⟨message, hm⟩ := deserializeMessage_ok id (hs.decodes hz hh)
    refine ⟨message, hw'.2 id h message ?_ (hs.named id _ hz) hh hm, hm⟩
    exact List.mem_map.mpr ⟨_, mem_correlationIndexKeys.mpr ⟨_, rfl⟩, hz⟩
  · obtain ⟨id, h, hk, hh, hd⟩ := h
    obtain ⟨key, -, hz⟩ := List.mem_map.mp hk
    exact hd (hs.decodes hz hh)

/-- A step after which every stored message was stored before, as it is. -/
def NoneAdded (w w' : World) : Prop :=
  ∀ id h, w'.store.redis.messages id = some h → w.store.redis.messages id = some h

/-- A cancel that succeeds leaves no hash of its message, and one that does not adds none. -/
theorem cancelOneMessage_deletes (m : DeviceMessage) :
    (cancelOneMessage svc m).wp (calm polls)
      (fun cancelled w' => NoneAdded w w' ∧
        (cancelled = true → w'.store.redis.messages m.id = none))
      NoThrow w := by
  unfold cancelOneMessage
  split
  next => exact ⟨fun _ _ h => h, fun h => nomatch h⟩
  next =>
    split
    next => exact ⟨fun _ _ h => h, fun h => nomatch h⟩
    next plugin _ =>
      unfold claimFromQueue
      rw [Prog.wp_bind, wp_redis_plain rfl]
      have hclaim : ∀ claimed : Bool, (if claimed then do
            purge m plugin
            return true
          else return false : Engine Bool).wp (calm polls)
          (fun cancelled w' => NoneAdded w w' ∧
            (cancelled = true → w'.store.redis.messages m.id = none)) NoThrow
          (w.after (.removeMessageFromQueue (cancelQueue plugin m) m.id) "") := by
        intro claimed
        cases claimed with
        | false => exact ⟨fun _ _ h => h, fun h => nomatch h⟩
        | true =>
          simp only [↓reduceIte]
          unfold purge
          rw [Prog.wp_bind, wp_redis_plain rfl]
          have he := cleanup_messages m (purgeQueues m plugin)
            (w.store.redis.zrem (cancelQueue plugin m) m.id)
          refine ⟨fun id h hh => ?_, fun _ => (congrFun he m.id).trans (Function.update_self ..)⟩
          have hh := (congrFun he id).symm.trans hh
          exact (update_none_cases hh).2
      exact hclaim _

theorem cancelMessages_deletes (messages : List DeviceMessage) :
    (cancelMessages svc messages).wp (calm polls)
      (fun outcomes w' => NoneAdded w w' ∧ (outcomes.all id = true →
        ∀ m ∈ messages, w'.store.redis.messages m.id = none))
      NoThrow w := by
  induction messages generalizing w with
  | nil => exact ⟨fun _ _ h => h, fun _ _ hm => nomatch hm⟩
  | cons m rest ih =>
    unfold cancelMessages
    rw [Prog.wp_bind]
    refine Prog.wp_mono (cancelOneMessage_deletes m) (fun cancelled w₁ h₁ => ?_) fun _ _ h => h
    rw [Prog.wp_bind]
    refine Prog.wp_mono ih (fun outcomes w₂ h₂ => ?_) fun _ _ h => h
    refine ⟨fun id h hh => h₁.1 id h (h₂.1 id h hh), fun hall m' hm' => ?_⟩
    simp only [List.all_cons, id_eq, Bool.and_eq_true] at hall
    rcases List.mem_cons.mp hm' with rfl | hm'
    · have hnone := h₁.2 hall.1
      rw [Option.eq_none_iff_forall_ne_some] at hnone ⊢
      exact fun h hh => hnone h (h₂.1 _ h hh)
    · exact h₂.2 hall.2 m' hm'

/-- What a cancel answers is what it leaves. -/
theorem cancelOne_complete (hs : LiveIndex w.store) :
    (cancelOne svc correlation).wp (calm polls)
      (fun result w' =>
        (result = .CANCELLED → ∀ id h, w'.store.redis.messages id = some h →
          h.correlationId ≠ some correlation) ∧
        (result = .NOT_FOUND → ∀ id h, w.store.redis.messages id = some h →
          h.correlationId ≠ some correlation))
      NoThrow w := by
  unfold cancelOne
  rw [Prog.wp_bind]
  refine Prog.wp_mono (getAll_complete hs) (fun messages w' h => ?_) fun _ _ h => h
  obtain ⟨rfl, hfound⟩ := h
  cases messages with
  | nil =>
    refine ⟨(fun he => nomatch he), fun _ id h hh hc => ?_⟩
    obtain ⟨m, hm, -⟩ := hfound id h hh hc
    cases hm
  | cons m rest =>
    dsimp only
    rw [Prog.wp_bind]
    refine Prog.wp_mono (cancelMessages_deletes (m :: rest)) (fun outcomes w'' h => ?_)
      fun _ _ h => h
    obtain ⟨hadd, hdel⟩ := h
    by_cases hall : outcomes.all id = true
    · simp only [hall, ↓reduceIte]
      refine ⟨fun _ y h hh hc => ?_, fun he => nomatch he⟩
      obtain ⟨m', hm', hd⟩ := hfound y h (hadd y h hh) hc
      have hid := (deserializeMessage_fields hd).2.1
      rw [← hid, hdel hall m' hm'] at hh
      cases hh
    · simp only [hall, Bool.false_eq_true, ↓reduceIte]
      exact ⟨(fun he => nomatch he), (fun he => nomatch he)⟩

/-- In every run whose enqueues and purges find their index key free, a lookup
returns every stored message of its id, a cancel that answers CANCELLED leaves none,
and one that answers NOT_FOUND met none. -/
theorem reached_live_indexed {weather : Weather} (hw : weather.expiry = false) {x : Process}
    (hx : Reached svc weather (OnCommand IndexFree) x) (correlation : String) :
    (∀ r w', (getAllMessagesForCorrelationId correlation).Runs (calmExec anyPoll) x.world r w' →
      ∃ messages, r = .ok messages ∧ ∀ id h, x.world.store.redis.messages id = some h →
        h.correlationId = some correlation →
        ∃ message ∈ messages, deserializeMessage id h = .ok message) ∧
    ∀ r w', (cancelOne svc correlation).Runs (calmExec anyPoll) x.world r w' →
      ∃ result, r = .ok result ∧
        (result = .CANCELLED → ∀ id h, w'.store.redis.messages id = some h →
          h.correlationId ≠ some correlation) ∧
        (result = .NOT_FOUND → ∀ id h, x.world.store.redis.messages id = some h →
          h.correlationId ≠ some correlation) := by
  obtain ⟨hs, -⟩ := reached_liveIndex hw hx
  constructor
  · intro r w' hr
    have he := Prog.wp_runs (getAll_complete hs) hr
    cases r with
    | ok messages => exact ⟨messages, rfl, he.2⟩
    | error e => exact he.elim
  · intro r w' hr
    have he := Prog.wp_runs (cancelOne_complete hs) hr
    cases r with
    | ok result => exact ⟨result, rfl, he⟩
    | error e => exact he.elim

/-- Where the key is not free, a stored message is left that no key leads to. -/
theorem key_taken_unindexed {weather : Weather} (hw : weather.expiry = false) {x : Process}
    (hx : Reached svc weather (OnCommand IndexFree) x)
    (hc : Cmd.Proper svc x.world.store.enqueued (.redis c)) (hf : c.Fresh i x.world.store)
    (hp : ¬ IndexFree c x.world.store) :
    ∃ y h z, (x.world.store.exec c i).2.redis.messages y = some h ∧ h.indexKey = some z ∧
      ∀ z', (x.world.store.exec c i).2.redis.correlations z' ≠ some y := by
  obtain ⟨hs, hprov⟩ := reached_liveIndex hw hx
  -- an entry for `y` is under the key of its request, the one that was written over
  have hentry : ∀ {y h z z'}, x.world.store.redis.messages y = some h → h.indexKey = some z →
      x.world.store.redis.correlations z' = some y → z' = z := by
    intro y h z z' hy hz hz'
    obtain ⟨h', dto, hh, -, hcr, hk⟩ := hs.sound z' y hz'
    cases hy.symm.trans hh
    exact Option.some.inj ((hcr.indexKey.trans hk).symm.trans hz)
  cases c with
  | enqueueDeviceMessage dto q =>
    simp only [IndexFree, not_forall] at hp
    obtain ⟨y, h, hy, hk, hne⟩ := hp
    obtain ⟨z, hz⟩ := Option.ne_none_iff_exists'.mp hne
    have hyi : y ≠ i := fun e => (hf rfl).2 (e ▸ hprov.named y (by simp [hy]))
    refine ⟨y, h, z, ?_, hk.trans hz, fun z' hz' => ?_⟩
    · refine (congrFun (enqueue_messages i dto q x.world.store.redis) y).trans ?_
      rw [Function.update_of_ne hyi, hy]
    · rcases enqueue_correlations.mp hz' with ⟨-, e⟩ | ⟨hne', hz'⟩
      · exact hyi e
      · rw [hentry hy (hk.trans hz) hz'] at hne'
        exact hne' hz
  | messageFullCleanup m qs =>
    simp only [IndexFree, Store.KeyFree, not_forall] at hp
    obtain ⟨y, h, hym, hy, hk, hne⟩ := hp
    obtain ⟨z, hz⟩ := Option.ne_none_iff_exists'.mp hne
    refine ⟨y, h, z, ?_, hk.trans hz, fun z' hz' => ?_⟩
    · refine (congrFun (cleanup_messages m qs x.world.store.redis) y).trans ?_
      rw [Function.update_of_ne hym, hy]
    · obtain ⟨hne', hz'⟩ := cleanup_correlations.mp hz'
      rw [hentry hy (hk.trans hz) hz'] at hne'
      exact hne' hz
  | _ => exact absurd trivial hp

theorem indexFree_empty (c : RedisCmd) : IndexFree c .empty := by
  cases c with
  | enqueueDeviceMessage dto q => exact fun _ _ h => nomatch h
  | messageFullCleanup m qs => exact fun _ _ _ h => nomatch h
  | _ => trivial

/-- A request made once is found. -/
theorem phased_found :
    ∃ x : Process, ∃ h, x.world.store.redis.messages sampleId = some h ∧
      ∀ r w', (getAllMessagesForCorrelationId "job-1").Runs (calmExec anyPoll) x.world r w' →
        ∃ messages, r = .ok messages ∧ ∃ message ∈ messages,
          deserializeMessage sampleId h = .ok message := by
  let x₁ : Process := ⟨[(.enqueue phasedCreate, handlerProgram vendorService (.enqueue phasedCreate))],
    .boot .empty⟩
  have hx₁ : Reached vendorService {} (OnCommand IndexFree) x₁ :=
    .step (.start (.enqueue phasedCreate)) .init (fun _ _ _ _ ha => nomatch ha) rfl
  have hplay : ((engine vendorService {}).next (.turn 0 { id := sampleId }) x₁).any (fun x =>
      (x.world.store.redis.messages sampleId).any fun h => h.correlationId = some "job-1") = true := by
    decide +kernel
  obtain ⟨x, hnext, hx⟩ := (Option.any_eq_true _ _).mp hplay
  obtain ⟨h, hh, hc⟩ := (Option.any_eq_true _ _).mp hx
  have hreached : Reached vendorService {} (OnCommand IndexFree) x :=
    .step (.turn 0 { id := sampleId }) hx₁ (fun _ _ _ c _ _ => indexFree_empty c) hnext
  refine ⟨x, h, hh, fun r w' hr => ?_⟩
  obtain ⟨messages, rfl, hall⟩ := (reached_live_indexed rfl hreached "job-1").1 r w' hr
  exact ⟨messages, rfl, hall sampleId h hh (of_decide_eq_true hc)⟩

def againId : MessageId :=
  "01ARZ3NDEKTSV4RRFFQ69G5FAX"

/-- The request is made a second time under the same id and phase. -/
def phasedTwice : List (Choice Handler Oracle Disturbance) :=
  List.flatten [
    phasedEnqueue,
    [.start (.enqueue phasedCreate), .turn 1 { id := againId }]]

/-- The second enqueue hides the first message from lookups, and a cancel that
answers CANCELLED leaves it. -/
theorem second_enqueue_hides :
    (¬ ∀ x, Reached vendorService {} (fun _ _ => True) x → ∀ c messages w',
      (getAllMessagesForCorrelationId c).Runs (calmExec anyPoll) x.world (.ok messages) w' →
        ∀ id h, x.world.store.redis.messages id = some h → h.correlationId = some c →
          ∃ message ∈ messages, message.id = id) ∧
    ¬ ∀ x, Reached vendorService {} (fun _ _ => True) x → ∀ c w',
      (cancelOne vendorService c).Runs (calmExec anyPoll) x.world (.ok .CANCELLED) w' →
        ∀ id h, w'.store.redis.messages id = some h → h.correlationId ≠ some c := by
  obtain ⟨x, hx, hr⟩ := exists_reached vendorService {} (fun _ _ => true) phasedTwice
    (fun x => (((getAllMessagesForCorrelationId "job-1").play (scripted fun _ _ _ => true)
        granted x.world).any fun e => e.1.toOption.any fun messages =>
          messages.all fun message => message.id ≠ sampleId) &&
      (((cancelOne vendorService "job-1").play (scripted fun _ _ _ => true) granted
        x.world).any fun e => e.1.toOption = some .CANCELLED ∧
          (e.2.store.redis.messages sampleId).any fun h => h.correlationId = some "job-1") &&
      (x.world.store.redis.messages sampleId).any fun h => h.correlationId = some "job-1")
    (fun _ _ _ => trivial) (by decide +kernel)
  simp only [Bool.and_eq_true] at hr
  obtain ⟨⟨hlookup, hcancel⟩, hstored⟩ := hr
  constructor
  · intro hall
    obtain ⟨r, w', hrun, hr⟩ := runs_of_script hlookup
    cases r with
    | error e => cases hr
    | ok messages =>
      obtain ⟨h, hh, hc⟩ := (Option.any_eq_true _ _).mp hstored
      obtain ⟨m, hm, hid⟩ := hall x hx _ messages w' hrun sampleId h hh (of_decide_eq_true hc)
      exact of_decide_eq_true (List.all_eq_true.mp hr m hm) hid
  · intro hall
    obtain ⟨r, w', hrun, hr⟩ := runs_of_script hcancel
    obtain ⟨hres, hleft⟩ := of_decide_eq_true hr
    cases r with
    | error e => cases hres
    | ok result =>
      cases hres
      obtain ⟨h, hh, hc⟩ := (Option.any_eq_true _ _).mp hleft
      exact hall x hx _ w' hrun sampleId h hh (of_decide_eq_true hc)

end DeviceMessaging
