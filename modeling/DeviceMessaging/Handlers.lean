import DeviceMessaging.Outgoing
import DeviceMessaging.PluginCatalog

namespace DeviceMessaging

open Effect

/-- The concurrent handlers of the process. A distribute pass is kicked after
every enqueue and at the end of every tick: it may start at any time. -/
inductive Handler
  | enqueue (create : CreateDeviceMessage)
  | distribute
  | tick
  | ingress (pluginId : PluginId) (event : ParsedIncomingEvent)
  | cancel (correlationId : String)
  | task (t : Task)

variable (svc : Service)

/-- PUSH ingress: the HTTP route has resolved an enabled PUSH plugin. -/
def ingress (pluginId : PluginId) (event : ParsedIncomingEvent) : Engine Unit :=
  match svc.registry.delivery pluginId with
  | none => pure ()
  | some plugin =>
    if plugin.deliveryPattern = .PUSH then do
      let _ ← processEvent svc event plugin
      return ()
    else pure ()

def send (pluginId : PluginId) (message : DeviceMessage) (token : Nat) : Engine Unit :=
  match svc.registry.delivery pluginId with
  | none => pure ()
  | some plugin => trackedSend svc plugin message token

def taskProgram (t : Task) : Engine Unit :=
  match t with
  | .drain queue now => drainRow svc queue now
  | .distributeQueue queueKey => distributeQueue svc queueKey
  | .send pluginId message token => send svc pluginId message token
  | .cancelMessage message => do
    let _ ← cancelOneMessage svc message
    return ()

def handlerProgram (h : Handler) : Engine Unit :=
  match h with
  | .enqueue create => do
    let _ ← enqueue svc create
    return ()
  | .distribute => distributeToNetworkServers
  | .tick => tick svc
  | .ingress pluginId event => ingress svc pluginId event
  | .cancel correlationId => cancelConcurrently correlationId
  | .task t => taskProgram svc t

/-- Handed-off work starts once for each time it was handed off. -/
def startHandler (h : Handler) (w : World) : Option World :=
  match h with
  | .task t => if t ∈ w.tasks then some { w with tasks := w.tasks.erase t } else none
  | _ => some w

/-- What happens to the keyspace by itself. -/
inductive Disturbance
  | elapse (ms : Nat)
  | expireMessage (id : MessageId)
  | expireCorrelation (key : String)
  | expireExternal (deliveryQueueId : String)
  deriving DecidableEq

/-- What a run has to put up with. -/
structure Weather where
  faults : Bool := false
  crashes : Bool := false
  expiry : Bool := false

def Disturbance.allowed (d : Disturbance) (weather : Weather) : Bool :=
  match d with
  | elapse _ => true
  | _ => weather.expiry

def Disturbance.apply (d : Disturbance) (r : Redis) : Redis :=
  match d with
  | elapse ms => { r with clock := r.clock + ms }
  | expireMessage id => r.delMessage id
  | expireCorrelation key => r.delCorrelation key
  | expireExternal x => r.delExternal x

def Store.disturb (s : Store) (d : Disturbance) : Store :=
  { s with redis := d.apply s.redis }

def oracleAllowed (weather : Weather) (o : Oracle) : Bool :=
  o.fault.isNone || weather.faults

/-- The process: its handlers interleaved at single commands. -/
def engine (weather : Weather) : System Cmd Reply String Handler World Oracle Disturbance where
  program := handlerProgram svc
  respond o c w := if oracleAllowed weather o then respond o c w else none
  start := startHandler
  disturb d w :=
    if d.allowed weather then some { w with store := w.store.disturb d } else none
  crash w := if weather.crashes then some (.boot w.store) else none

abbrev Process :=
  Config Cmd Reply String Handler World

def Process.initial : Process where
  threads := []
  world := .boot .empty

/-- The processes of the runs from an empty store whose steps meet `ok`. -/
abbrev Reached (weather : Weather) (ok : Process → Choice Handler Oracle Disturbance → Prop) :
    Process → Prop :=
  (engine svc weather).Reachable ok Process.initial

/-- A condition on the Redis commands of a run, read off the store they meet. -/
def OnCommand (p : RedisCmd → Store → Prop) (x : Process)
    (a : Choice Handler Oracle Disturbance) : Prop :=
  ∀ i o h c, a = .turn i o → x.waiting i = some (h, .redis c) → p c x.world.store

/-- The same, checked. -/
def checkCommand (p : RedisCmd → Store → Bool) (x : Process)
    (a : Choice Handler Oracle Disturbance) : Bool :=
  match a with
  | .turn i _ =>
    match x.waiting i with
    | some (_, .redis c) => p c x.world.store
    | _ => true
  | _ => true

variable {svc} {weather : Weather}

theorem onCommand_of_check {p : RedisCmd → Store → Prop} {b : RedisCmd → Store → Bool}
    (hb : ∀ c s, b c s = true → p c s) (x : Process) (a : Choice Handler Oracle Disturbance)
    (h : checkCommand b x a = true) : OnCommand p x a := by
  rintro i o hd c rfl hw
  simp only [checkCommand, hw] at h
  exact hb c _ h

theorem exists_reached (svc : Service) (weather : Weather)
    {ok : Process → Choice Handler Oracle Disturbance → Prop}
    (check : Process → Choice Handler Oracle Disturbance → Bool)
    (as : List (Choice Handler Oracle Disturbance)) (p : Process → Bool)
    (hc : ∀ x a, check x a = true → ok x a)
    (h : ((engine svc weather).follow check as Process.initial).any p = true) :
    ∃ x, Reached svc weather ok x ∧ p x = true :=
  System.exists_reachable check as p hc h

theorem respond_store {o : Oracle} {c : Cmd} {w w' : World} {r : Reply c}
    (h : respond o c w = some (r, w')) :
    w'.store = w.store ∨
      ∃ c', c = .redis c' ∧ c'.Fresh o.id w.store ∧ w'.store = (w.store.exec c' o.id).2 := by
  cases c with
  | redis c =>
    simp only [respond, execRedis] at h
    split at h
    next hf =>
      split at h <;> simp only [Option.some.injEq, Prod.mk.injEq] at h
      · exact .inr ⟨c, rfl, hf, by rw [← h.2]⟩
      · exact .inl (by rw [← h.2])
      · exact .inr ⟨c, rfl, hf, by rw [← h.2]⟩
    next => cases h
  | mathRandom =>
    simp only [respond] at h
    split at h <;> simp_all
  | beginDrain q =>
    simp only [respond] at h
    split at h <;> simp only [Option.some.injEq, Prod.mk.injEq] at h <;>
      exact .inl (h.2 ▸ rfl)
  | settleSend id token =>
    simp only [respond, Option.some.injEq, Prod.mk.injEq, World.settle] at h
    refine .inl ?_
    rw [← h.2]
    split <;> rfl
  | _ =>
    simp only [respond, Option.some.injEq, Prod.mk.injEq] at h
    exact .inl (h.2 ▸ rfl)

/-- What one choice can do to the store. -/
theorem store_next {a : Choice Handler Oracle Disturbance} {x y : Process}
    (hy : (engine svc weather).next a x = some y) :
    y.world.store = x.world.store ∨
    (∃ i o h c, a = .turn i o ∧ x.waiting i = some (h, .redis c) ∧ c.Fresh o.id x.world.store ∧
      y.world.store = (x.world.store.exec c o.id).2) ∨
    ∃ d, a = .disturb d ∧ y.world.store = x.world.store.disturb d := by
  rcases System.next_cases hy with ⟨h, w, rfl, hw, rfl⟩ | ⟨i, o, h, c, k, r, w, rfl, ht, hr, rfl⟩ |
    ⟨d, w, rfl, hw, rfl⟩ | ⟨w, rfl, hw, rfl⟩
  · refine .inl ?_
    unfold engine startHandler at hw
    simp only at hw
    split at hw
    next =>
      split at hw
      next => cases Option.some.inj hw; rfl
      next => cases hw
    next => cases Option.some.inj hw; rfl
  · simp only [engine] at hr
    split at hr
    next =>
      rcases respond_store hr with hs | ⟨c', rfl, hf, hs⟩
      · exact .inl hs
      · refine .inr (.inl ⟨i, o, h, c', rfl, ?_, hf, hs⟩)
        simp [Config.waiting, ht, Prog.pending]
    next => cases hr
  · simp only [engine] at hw
    split at hw
    next => cases Option.some.inj hw; exact .inr (.inr ⟨d, rfl, rfl⟩)
    next => cases hw
  · simp only [engine] at hw
    split at hw
    next => cases Option.some.inj hw; exact .inl rfl
    next => cases hw

/-- The rule for invariants of the store: what every command that meets the
run's condition preserves, and every expiry, holds throughout the run. -/
theorem store_invariant {I : Store → Prop} {p : RedisCmd → Store → Prop} {x : Process}
    (h0 : I .empty)
    (hexec : ∀ s c id, I s → p c s → c.Fresh id s → I (s.exec c id).2)
    (hdisturb : ∀ s d, I s → I (s.disturb d))
    (hx : Reached svc weather (OnCommand p) x) : I x.world.store := by
  refine hx.invariant (I := fun x => I x.world.store) h0 ?_
  intro x y a hI ha hy
  rcases store_next hy with hs | ⟨i, o, h, c, rfl, hw, hf, hs⟩ | ⟨d, -, hs⟩ <;> rw [hs]
  · exact hI
  · exact hexec _ c o.id hI (ha i o h c rfl hw) hf
  · exact hdisturb _ d hI

/-- A command for one meter, on its first attempt: the id drawn for it, its
request, the message handed to `sendOne`, and the ready queue it waits in. -/
def sampleId : MessageId :=
  "01ARZ3NDEKTSV4RRFFQ69G5FAV"

def sampleDevice : Device :=
  { externalReference := "1001" }

theorem readCredit_enqueueable : CommandType.isEnqueueable .readCredit = true := by decide

theorem no_correlationId : (none : Option String) ≠ some "" := by decide

def sampleCreate : CreateDeviceMessage where
  commandType := .readCredit
  priority := { significand := 1, exponent := 1 }
  pluginId := "calin-chirpstack"
  device := sampleDevice
  enqueueable := readCredit_enqueueable
  pluginId_ne := calinChirpstack_named
  correlationId_ne := no_correlationId

def sampleMessage : DeviceMessage where
  id := sampleId
  commandType := some .readCredit
  pluginId := some "calin-chirpstack"
  priority := some 10
  device := sampleDevice
  networkId := none
  correlationId := none
  requestData := none
  phase := none
  deliveryQueueId := ""
  deliveryStatus := some .SENT_TO_NS
  retryCount := some 0
  failureHistory := []
  concurrencyRateLimitKey := none

def sampleQueue : QueueKey :=
  buildInitialQueueKey "calin-chirpstack" "network" "unassigned"

def turns (i n : Nat) (o : Oracle) : List (Choice Handler Oracle Disturbance) :=
  .replicate n (.turn i o)

/-- The sample command is enqueued, picked and accepted by the network server as
`X`, and moves on to wait for the relay node. -/
def sampleSend : List (Choice Handler Oracle Disturbance) :=
  List.flatten [
    [.start (.enqueue sampleCreate), .turn 0 { id := sampleId }, .start .distribute], turns 1 2 {},
    [.start (.task (.distributeQueue sampleQueue))], turns 2 8 {},
    [.start (.task (.send "calin-chirpstack" sampleMessage 0))], turns 3 5 { sent := .ok "X" }]

def sampleEvent (status : DeliveryStatus) : ParsedIncomingEvent :=
  { deliveryQueueId := some "X", deliveryStatus := status, device := sampleDevice }

/-- A due relay-node deadline finds the message gone from the vendor's queue and
passes its `ZSCORE`. -/
def relayNodeDeadline : List (Choice Handler Oracle Disturbance) :=
  List.flatten [
    [.start .tick, .turn 4 { now := 900000 }], turns 4 6 {},
    [.start (.task (.drain ⟨.relayNode, .relayNode⟩ 900000))],
    turns 5 10 { remote := .ok "DELIVERY_FAILED" }]

end DeviceMessaging
