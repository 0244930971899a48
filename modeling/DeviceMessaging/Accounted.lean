import DeviceMessaging.Untouched

namespace DeviceMessaging

/-- A status under which the external id of an attempt is indexed. -/
def DeliveryStatus.IsIndexed (status : DeliveryStatus) : Prop :=
  status = .DELIVERED_TO_NS ∨ status = .SENT_TO_DEVICE

instance (status : DeliveryStatus) : Decidable status.IsIndexed :=
  inferInstanceAs (Decidable (_ ∨ _))

/-- Where a message stands: its request, its plugin, its status and its count of
retries. -/
structure Attempt where
  create : CreateDeviceMessage
  plugin : DeliveryPlugin
  status : DeliveryStatus
  count : Int

def Attempt.readyQueue (a : Attempt) : QueueKey :=
  a.plugin.initialQueueKey (a.create.networkId.map fun n => some n) a.create.device

/-- The queue that goes with a status, when there is one. -/
def stationKey (plugin : DeliveryPlugin) (readyQueue : QueueKey) (status : DeliveryStatus) :
    Option QueueKey :=
  if status = .QUEUED then some readyQueue
  else (stageForStatus status plugin.deliveryPattern).map fun stage => stageKeyFor stage plugin.id

def Attempt.station (a : Attempt) : Option QueueKey :=
  stationKey a.plugin a.readyQueue a.status

def Attempt.correlationKey (a : Attempt) : Option String :=
  DeviceMessaging.correlationKey a.create.correlationId a.create.phase

/-- No trace of the message is left in the keyspace. -/
structure Redis.NoReference (r : Redis) (m : MessageId) : Prop where
  hash : r.messages m = none
  queues : ∀ q, m ∉ r.queues q
  rateLimits : ∀ k, m ∉ r.rateLimits k
  externals : ∀ y, r.externals y ≠ some m
  correlations : ∀ y, r.correlations y ≠ some m

variable (svc : Service) (settled : DeliveryPattern → Prop) (ledger : List Issued)

/-- A hash that says where the message stands. -/
structure Standing (h : MessageHash) (a : Attempt) : Prop where
  holds : h.HoldsCreate a.create
  owned : svc.registry.delivery a.create.pluginId = some a.plugin
  status : h.deliveryStatus = some a.status
  count : h.retryCount.getD (.text 0) = .text a.count
  station : a.station ≠ none
  free : a.status = .QUEUED ∨ a.status = .TO_RETRY → h.concurrencyRateLimitKey = none

/-- Every reference to a message is one that its hash accounts for. For the
settled delivery patterns it also waits where its status says. -/
structure Places (w : World) (m : MessageId) (h : MessageHash) (a : Attempt) : Prop where
  queues : ∀ q, m ∈ w.store.redis.queues q → a.station = some q
  home : settled a.plugin.deliveryPattern → ∀ q, a.station = some q → m ∈ w.store.redis.queues q
  rateLimits : ∀ k, m ∈ w.store.redis.rateLimits k → h.concurrencyRateLimitKey = some k
  externals : ∀ y, w.store.redis.externals y = some m → truthy h.deliveryQueueId = some y ∧
    a.status.IsIndexed ∧ ⟨y, a.plugin.id, m, some a.count⟩ ∈ ledger
  index : a.status.IsIndexed → ∃ y, truthy h.deliveryQueueId = some y ∧
    ⟨y, a.plugin.id, m, some a.count⟩ ∈ ledger ∧
    (Exclusive ledger y m → w.store.redis.externals y = some m)
  issued : ∀ y, truthy h.deliveryQueueId = some y →
    ∃ e ∈ ledger, e.externalId = y ∧ e.messageId = m
  correlations : ∀ y, w.store.redis.correlations y = some m → a.correlationKey = some y
  once : (w.outstanding m).length ≤ 1
  sends : ∀ t ∈ w.outstanding m, a.status = .SENT_TO_NS ∧ (w.inFlightSends m).isSome ∧
    ∃ message token, t = .send a.plugin.id message token ∧ message.retryCount = some a.count
  named : m ∈ w.store.named
  unpurged : m ∉ w.store.purged
  id_ne : m ≠ ""

structure Gone (w : World) (m : MessageId) : Prop extends w.store.redis.NoReference m where
  idle : w.outstanding m = []
  named : m ∈ w.store.purged → m ∈ w.store.named

def StandsAt (w : World) (m : MessageId) (a : Attempt) : Prop :=
  ∃ h, w.store.redis.messages m = some h ∧ Standing svc h a ∧ Places settled ledger w m h a

/-- A message is gone without a trace, or all there is of it fits its hash. -/
def Accounted (w : World) (m : MessageId) : Prop :=
  Gone w m ∨ ∃ a, StandsAt svc settled ledger w m a

def Sound (w : World) : Prop :=
  ∀ m, Accounted svc settled ledger w m

variable {svc settled ledger} {w w' : World} {m : MessageId} {h : MessageHash} {a : Attempt}

theorem NoReference.spared {r r' : Redis} (hn : r.NoReference m) (hs : Spared ledger m r r') :
    r'.NoReference m where
  hash := hs.hash.trans hn.hash
  queues q hq := hn.queues q ((hs.queues q).mp hq)
  rateLimits k hk := hn.rateLimits k (hs.rateLimits k hk)
  externals y hy := hn.externals y (hs.externals y hy)
  correlations y hy := hn.correlations y (hs.correlations y hy)

theorem Places.untouched (hp : Places settled ledger w m h a) (hu : Untouched ledger m w w') :
    Places settled ledger w' m h a where
  queues q hq := hp.queues q ((hu.queues q).mp hq)
  home hset q hq := (hu.queues q).mpr (hp.home hset q hq)
  rateLimits k hk := hp.rateLimits k (hu.rateLimits k hk)
  externals y hy := hp.externals y (hu.externals y hy)
  index hi := by
    obtain ⟨y, hx, hl, hy⟩ := hp.index hi
    exact ⟨y, hx, hl, fun he => hu.index y he (hy he)⟩
  issued := hp.issued
  correlations y hy := hp.correlations y (hu.correlations y hy)
  once := hu.outstanding ▸ hp.once
  sends t ht := by
    rw [hu.held]
    exact hp.sends t (hu.outstanding ▸ ht)
  named := hu.named hp.named
  unpurged hm := hp.unpurged (hu.purged hm)
  id_ne := hp.id_ne

theorem StandsAt.untouched (hs : StandsAt svc settled ledger w m a) (hu : Untouched ledger m w w') :
    StandsAt svc settled ledger w' m a := by
  obtain ⟨h, hh, hst, hp⟩ := hs
  exact ⟨h, hu.hash.trans hh, hst, hp.untouched hu⟩

theorem Gone.untouched (hn : Gone w m) (hu : Untouched ledger m w w') : Gone w' m where
  toNoReference := NoReference.spared hn.toNoReference hu.toSpared
  idle := hu.outstanding.trans hn.idle
  named hm := hu.named (hn.named (hu.purged hm))

theorem Accounted.untouched (hs : Accounted svc settled ledger w m)
    (hu : Untouched ledger m w w') : Accounted svc settled ledger w' m :=
  hs.imp (·.untouched hu) fun ⟨a, hs⟩ => ⟨a, hs.untouched hu⟩

theorem Sound.untouched (hs : Sound svc settled ledger w) (hu : ∀ x, Untouched ledger x w w') :
    Sound svc settled ledger w' :=
  fun x => (hs x).untouched (hu x)

/-- A step that touches one message keeps all accounts when it keeps that one. -/
theorem Sound.change (hs : Sound svc settled ledger w) (ho : Only ledger m w w')
    (hm : Accounted svc settled ledger w' m) : Sound svc settled ledger w' := by
  intro x
  by_cases hx : x = m
  · exact hx ▸ hm
  · exact (hs x).untouched (ho x hx).toUntouched

theorem Sound.more_issued {ledger' : List Issued} (hs : Sound svc settled ledger w)
    (hl : ∀ e ∈ ledger, e ∈ ledger') : Sound svc settled ledger' w := by
  intro x
  rcases hs x with hn | ⟨a, h, hh, hst, hp⟩
  · exact .inl hn
  · refine .inr ⟨a, h, hh, hst, { hp with
      externals := fun y hy => ?_, index := fun hi => ?_, issued := fun y hy => ?_ }⟩
    · obtain ⟨hx, hi, he⟩ := hp.externals y hy
      exact ⟨hx, hi, hl _ he⟩
    · obtain ⟨y, hx, he, hy⟩ := hp.index hi
      exact ⟨y, hx, hl _ he, fun hex => hy fun e hm => hex e (hl e hm)⟩
    · obtain ⟨e, he, hx⟩ := hp.issued y hy
      exact ⟨e, hl e he, hx⟩

/-- What is stored stands somewhere. -/
theorem Sound.standing (hs : Sound svc settled ledger w)
    (hh : w.store.redis.messages m = some h) :
    ∃ a, Standing svc h a ∧ Places settled ledger w m h a := by
  rcases hs m with hn | ⟨a, h', hh', hst, hp⟩
  · rw [hn.hash] at hh
    cases hh
  · cases hh'.symm.trans hh
    exact ⟨a, hst, hp⟩

/-- An id that no write has named is not in the store at all. -/
theorem Sound.unnamed (hs : Sound svc settled ledger w) (hn : m ∉ w.store.named) :
    Gone w m := by
  rcases hs m with hm | ⟨a, h', -, -, hp⟩
  · exact hm
  · exact absurd hp.named hn

/-- A message whose send is outstanding is in the hands of the network server. -/
theorem Places.no_send (hp : Places settled ledger w m h a) (hst : a.status ≠ .SENT_TO_NS) :
    w.outstanding m = [] := by
  rw [List.eq_nil_iff_forall_not_mem]
  intro t ht
  exact hst (hp.sends t ht).1

theorem Places.no_send_of_free (hp : Places settled ledger w m h a)
    (hf : w.inFlightSends m = none) : w.outstanding m = [] := by
  rw [List.eq_nil_iff_forall_not_mem]
  intro t ht
  have hs := (hp.sends t ht).2.1
  simp [hf] at hs

/-- What a cleanup reads off a message, as its hash has it. -/
structure Snapshot (m : MessageId) (h : MessageHash) (a : Attempt) (message : DeviceMessage) :
    Prop where
  id : message.id = m
  pluginId : message.pluginId = some a.create.pluginId
  networkId : message.networkId = a.create.networkId.map fun n => some (n : Int)
  device : message.device = a.create.device
  correlation : correlationKey message.correlationId message.phase = a.correlationKey
  deliveryQueueId : message.deliveryQueueId = h.deliveryQueueId.getD ""
  slot : message.concurrencyRateLimitKey = h.concurrencyRateLimitKey

/-- A message as its hash loads. -/
structure Loaded (m : MessageId) (h : MessageHash) (a : Attempt) (message : DeviceMessage) : Prop
    extends Snapshot m h a message where
  status : message.deliveryStatus = some a.status
  count : message.retryCount = some a.count
  priority : ∃ p, message.priority = some p

/-- The id a message holds was not given to another message alone. -/
theorem Places.foreign (hp : Places settled ledger w m h a) {x : MessageId} (hx : x ≠ m) :
    ∀ y, truthy h.deliveryQueueId = some y → ¬ Exclusive ledger y x := by
  intro y hy
  obtain ⟨e, he, rfl, rfl⟩ := hp.issued y hy
  exact Issued.not_exclusive he hx

theorem truthy_of_ne {s : Option String} (hs : s ≠ some "") : truthy s = s := by
  cases s with
  | none => rfl
  | some s => exact truthy_some fun e => hs (e ▸ rfl)

theorem truthy_getD {s : Option String} : truthy (some (s.getD "")) = truthy s := by
  cases s <;> rfl

theorem Places.stale (hp : Places settled ledger w m h a) {message : DeviceMessage}
    (hl : Snapshot m h a message) {x : MessageId} (hx : x ≠ m) :
    ∀ y, truthy (some message.deliveryQueueId) = some y → ¬ Exclusive ledger y x := by
  rw [hl.deliveryQueueId, truthy_getD]
  exact hp.foreign hx

theorem Standing.load (hst : Standing svc h a) (m : MessageId) :
    ∃ message, deserializeMessage m h = .ok message ∧ Loaded m h a message := by
  obtain ⟨message, hm⟩ := deserializeMessage_ok m hst.holds.decodes
  obtain ⟨hd, hid, hp, hs, hx, hc, hph, hn, hr, hpr, hk⟩ := deserializeMessage_fields hm
  have hf := hst.holds.fields
  have hplugin := congrArg MessageHash.pluginId hf
  have hdevice := congrArg MessageHash.device hf
  have hnetwork := congrArg MessageHash.networkId hf
  have hcorr := congrArg MessageHash.correlationId hf
  have hphase := congrArg MessageHash.phase hf
  have hprio := congrArg MessageHash.priority hf
  dsimp only [MessageHash.immutable, serializeCreateDeviceMessage] at hplugin hdevice
  dsimp only [MessageHash.immutable, serializeCreateDeviceMessage] at hnetwork hcorr hphase hprio
  refine ⟨message, hm, ⟨hid, hp.trans hplugin, ?_, ?_, ?_, hx, hk⟩, hs.trans hst.status, ?_, ?_⟩
  · rw [hn, hnetwork, Option.map_map]
    rfl
  · rw [hdevice] at hd
    exact (FieldText.text.inj (Option.some.inj hd)).symm
  · rw [hc, hph, hcorr, hphase, truthy_of_ne a.create.correlationId_ne]
    rfl
  · rw [hr, hst.count]
    rfl
  · rw [hpr, hprio]
    exact ⟨_, rfl⟩

theorem Standing.plugin_id (hst : Standing svc h a) : a.create.pluginId = a.plugin.id :=
  (PluginRegistry.delivery_id hst.owned).symm

theorem Standing.owner (hst : Standing svc h a) {message : DeviceMessage}
    (hl : Snapshot m h a message) : owner svc message = some a.plugin := by
  unfold DeviceMessaging.owner
  rw [hl.pluginId]
  exact hst.owned

theorem Snapshot.readyQueue {message : DeviceMessage} (hl : Snapshot m h a message) :
    a.plugin.initialQueueKey message.networkId message.device = a.readyQueue := by
  rw [hl.networkId, hl.device]
  rfl

end DeviceMessaging
