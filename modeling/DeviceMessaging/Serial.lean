import Mathlib.Logic.Relation
import DeviceMessaging.CalmRequests
import DeviceMessaging.Handlers

namespace DeviceMessaging

open Effect

/-- What the service is asked to do, each handled from start to end: an answer to
an outstanding send, an event of a plugin's vendor, one due member of a stage. -/
inductive Request
  | enqueue (create : CreateDeviceMessage)
  | distribute (queueKey : QueueKey)
  | answer (pluginId : PluginId) (message : DeviceMessage) (token : Nat)
    (sent : Except VendorError String)
  | event (pluginId : PluginId) (event : ParsedIncomingEvent)
  | due (queue : StageQueue) (now : Nat) (messageId : MessageId)
  | cancel (correlationId : String)

/-- The service, and the ids its vendors gave out so far. -/
structure Serial where
  world : World
  ledger : List Issued

def Serial.initial : Serial where
  world := .boot .empty
  ledger := []

/-- The program that handles a request and the world it starts in, where the
request can be made. -/
def Serial.handler (svc : Service) (s : Serial) (a : Request) : Option (World × Engine Unit) :=
  match a with
  | .enqueue create => some (s.world, do
      let _ ← enqueue svc create
      return ())
  | .distribute queueKey => some (s.world, distributeQueue svc queueKey)
  | .answer pluginId message token sent =>
    if .send pluginId message token ∈ s.world.tasks ∧ GivenTo s.ledger pluginId message sent then
      (svc.registry.delivery pluginId).map fun plugin =>
        (s.world.answered (.send pluginId message token),
          settleSend svc plugin message token sent)
    else none
  | .event pluginId event => (svc.registry.delivery pluginId).map fun plugin => (s.world, do
      let _ ← processEvent svc event plugin
      return ())
  | .due queue now messageId =>
    if queue ∈ enumerateStageQueues (pullPluginIds svc) ∧
        messageId ∈ (s.world.store.redis.queues queue.key).due now queueScanBatchSize then
      some (s.world, drainMember svc queue now messageId)
    else none
  | .cancel correlationId => some (s.world, do
      let _ ← cancelOne svc correlationId
      return ())

/-- What the vendors' ids are fresh among. -/
abbrev Freshness :=
  List Issued → PluginId → String → Prop

/-- No vendor gives out an id that any vendor gave out before. -/
def neverReused : Freshness :=
  fun ledger _ x => ∀ e ∈ ledger, e.externalId ≠ x

/-- A vendor gives out no id that it gave out before. -/
def freshPerPlugin : Freshness :=
  fun ledger pluginId x => ∀ e ∈ ledger, e.pluginId = pluginId → e.externalId ≠ x

/-- The attempt a send makes was not accepted yet. -/
def Unaccepted (ledger : List Issued) (message : DeviceMessage) : Prop :=
  ∀ e ∈ ledger, e.messageId = message.id → e.retryCount ≠ message.retryCount

/-- One step: a request is handled, a vendor accepts an outstanding send under a
fresh id, the process restarts, or time passes. -/
inductive Step (svc : Service) (fresh : Freshness) (polls : PollRule) : Serial → Serial → Prop
  | request {s : Serial} (a : Request) {w w' : World} {p : Engine Unit} {r : Except String Unit}
    (hh : s.handler svc a = some (w, p)) (hr : p.Runs (calmExec polls) w r w') :
    Step svc fresh polls s ⟨w', s.ledger⟩
  | accept {s : Serial} {pluginId : PluginId} {message : DeviceMessage} {token : Nat} (x : String)
    (ht : .send pluginId message token ∈ s.world.tasks) (hx : x ≠ "")
    (hf : fresh s.ledger pluginId x) (hu : Unaccepted s.ledger message) :
    Step svc fresh polls s ⟨s.world, ⟨x, pluginId, message.id, message.retryCount⟩ :: s.ledger⟩
  | restart {s : Serial} : Step svc fresh polls s ⟨.boot s.world.store, s.ledger⟩
  | elapse {s : Serial} (ms : Nat) :
    Step svc fresh polls s
      ⟨{ s.world with store := s.world.store.disturb (.elapse ms) }, s.ledger⟩

/-- The states of the runs from an empty store. -/
abbrev Serially (svc : Service) (fresh : Freshness) (polls : PollRule) : Serial → Prop :=
  Relation.ReflTransGen (Step svc fresh polls) .initial

variable {svc : Service} {settled : DeliveryPattern → Prop} {ledger : List Issued}
  {fresh : Freshness} {polls : PollRule} {s s' : Serial} {w : World}

/-- For the settled patterns, what polls return leads somewhere. -/
def PollsLead (svc : Service) (settled : DeliveryPattern → Prop) (polls : PollRule) : Prop :=
  settled .PULL → ∀ w p plugin event, svc.registry.delivery p = some plugin →
    polls w p event → Routable svc plugin event w

theorem Sound.boot (svc : Service) (settled : DeliveryPattern → Prop) (ledger : List Issued) :
    Sound svc settled ledger (.boot .empty) := by
  intro m
  exact .inl ⟨⟨rfl, fun q => SortedSet.not_mem_empty, fun k => MemberSet.not_mem_empty, nofun, nofun⟩,
    rfl, nofun⟩

/-- A restart forgets the sends and keeps the rest. -/
theorem Sound.restart (hS : Sound svc settled ledger w) :
    Sound svc settled ledger (.boot w.store) := by
  intro m
  rcases hS m with hn | ⟨a, h, hh, hst, hp⟩
  · exact .inl ⟨hn.toNoReference, rfl, hn.named⟩
  · exact .inr ⟨a, h, hh, hst, { hp with once := Nat.zero_le 1, sends := fun _ ht => nomatch ht }⟩

theorem Sound.elapse (hS : Sound svc settled ledger w) (ms : Nat) :
    Sound svc settled ledger { w with store := w.store.disturb (.elapse ms) } :=
  hS.untouched fun _ => ⟨⟨rfl, fun _ => Iff.rfl, fun _ h => h, fun _ h => h, fun _ h => h,
    fun _ _ h => h⟩, rfl, rfl, fun h => h, fun h => h⟩

theorem handler_calm {a : Request} {p : Engine Unit} (hpolls : PollsLead svc settled polls)
    (hS : Sound svc settled s.ledger s.world) (hh : s.handler svc a = some (w, p)) :
    p.wp (calm polls) (fun _ => Sound svc settled s.ledger) (fun _ => Sound svc settled s.ledger)
      w := by
  cases a with
  | enqueue create =>
    cases hh
    rw [Prog.wp_bind]
    exact enqueue_calm hS create
  | distribute q =>
    cases hh
    exact Prog.wp_mono (distributeQueue_calm hS q) (fun _ _ h => h) fun _ _ h => h.elim
  | answer pluginId message token sent =>
    simp only [Serial.handler] at hh
    split at hh
    next ht =>
      obtain ⟨plugin, hp, he⟩ := Option.map_eq_some_iff.mp hh
      cases he
      exact Prog.wp_mono (settleSend_calm hS ht.1 rfl hp ht.2) (fun _ _ h => h)
        fun _ _ h => h.elim
    next => cases hh
  | event pluginId event =>
    obtain ⟨plugin, hp, he⟩ := Option.map_eq_some_iff.mp hh
    cases he
    rw [Prog.wp_bind]
    exact Prog.wp_mono (processEvent_calm hS event plugin) (fun _ _ h => h.sound hS)
      fun _ _ h => h.elim
  | due queue now messageId =>
    simp only [Serial.handler] at hh
    split at hh
    next hq =>
      cases hh
      obtain ⟨k, hk, -⟩ := SortedSet.mem_due hq.2
      exact drainMember_calm_sound hS hpolls hq.1 (SortedSet.mem_iff.mpr ⟨k, hk⟩)
    next => cases hh
  | cancel correlationId =>
    cases hh
    rw [Prog.wp_bind]
    exact Prog.wp_mono (cancelOne_calm hS correlationId) (fun _ _ h => h.1) fun _ _ h => h.elim

theorem Step.sound (hpolls : PollsLead svc settled polls) (hS : Sound svc settled s.ledger s.world)
    (hs : Step svc fresh polls s s') : Sound svc settled s'.ledger s'.world := by
  cases hs with
  | @request a w w' p r hh hr =>
    have he := Prog.wp_runs (handler_calm hpolls hS hh) hr
    cases r with
    | ok u => exact he
    | error e => exact he
  | accept => exact hS.more_issued fun e he => List.mem_cons_of_mem _ he
  | restart => exact hS.restart
  | elapse ms => exact hS.elapse ms

/-- In every run all there is of each message fits its hash. -/
theorem Serially.sound (hpolls : PollsLead svc settled polls) (hs : Serially svc fresh polls s) :
    Sound svc settled s.ledger s.world := by
  induction hs with
  | refl => exact .boot svc settled []
  | tail _ hstep ih => exact hstep.sound hpolls ih

/-- A run's ledger: an attempt is given one id, and no empty one. -/
structure LedgerOK (ledger : List Issued) : Prop where
  attempt : ∀ e ∈ ledger, ∀ e' ∈ ledger, e.messageId = e'.messageId →
    e.retryCount = e'.retryCount → e = e'
  nonempty : ∀ e ∈ ledger, e.externalId ≠ ""

theorem Serially.ledgerOK (hs : Serially svc fresh polls s) : LedgerOK s.ledger := by
  induction hs with
  | refl => exact ⟨fun _ he => (nomatch he), fun _ he => (nomatch he)⟩
  | tail _ hstep ih =>
    cases hstep with
    | accept x ht hx hf hu =>
      refine ⟨fun e he e' he' hm hc => ?_, fun e he => ?_⟩
      · rcases List.mem_cons.mp he with rfl | he <;> rcases List.mem_cons.mp he' with rfl | he'
        · rfl
        · exact absurd hc.symm (hu e' he' hm.symm)
        · exact absurd hc (hu e he hm)
        · exact ih.attempt e he e' he' hm hc
      · rcases List.mem_cons.mp he with rfl | he
        · exact hx
        · exact ih.nonempty e he
    | _ => exact ih

/-- Where no id is reused, an id is one attempt's. -/
theorem Serially.unique (hs : Serially svc neverReused polls s) :
    ∀ e ∈ s.ledger, ∀ e' ∈ s.ledger, e.externalId = e'.externalId → e = e' := by
  induction hs with
  | refl => exact fun _ he => nomatch he
  | tail _ hstep ih =>
    cases hstep with
    | accept x ht hx hf hu =>
      intro e he e' he' hid
      rcases List.mem_cons.mp he with rfl | he <;> rcases List.mem_cons.mp he' with rfl | he'
      · rfl
      · exact absurd hid.symm (hf e' he')
      · exact absurd hid (hf e he)
      · exact ih e he e' he' hid
    | _ => exact ih

section Scripts

/-- A step with its script: the answers the commands of a handler get. -/
inductive Move
  | request (a : Request) (os : List Oracle)
  | accept (pluginId : PluginId) (message : DeviceMessage) (token : Nat) (x : String)
  | restart
  | elapse (ms : Nat)

/-- A rule for polled events, checked on one command of a script. -/
def allows (rule : World → PluginId → ParsedIncomingEvent → Bool) (o : Oracle) (c : Cmd)
    (w : World) : Bool :=
  match c, o.polled with
  | .fetchStatus pluginId _, .ok (some event) => rule w pluginId event
  | _, _ => true

/-- One command of a script, where Redis answers. -/
def scripted (rule : World → PluginId → ParsedIncomingEvent → Bool) (o : Oracle) (c : Cmd)
    (w : World) : Option (Reply c × World) :=
  if o.fault = none ∧ allows rule o c w = true then respond o c w else none

theorem scripted_exec {rule : World → PluginId → ParsedIncomingEvent → Bool}
    (hrule : ∀ w p event, rule w p event = true → polls w p event) (o : Oracle) (c : Cmd)
    (w : World) (r : Reply c) (w' : World) (h : scripted rule o c w = some (r, w')) :
    calmExec polls w c r w' := by
  unfold scripted at h
  split at h
  next hc =>
    refine ⟨?_, o, hc.1, h⟩
    cases c with
    | fetchStatus p message =>
      have hr : o.polled = r := congrArg Prod.fst (Option.some.inj h)
      have ha := hc.2
      cases r with
      | error e => trivial
      | ok polled =>
        cases polled with
        | none => trivial
        | some event =>
          simp only [allows, hr] at ha
          exact hrule w p event ha
    | _ => trivial
  next => cases h

/-- One step of a scripted run. -/
def Serial.next (svc : Service) (fresh : List Issued → PluginId → String → Bool)
    (rule : World → PluginId → ParsedIncomingEvent → Bool) (a : Move) (s : Serial) :
    Option Serial :=
  match a with
  | .request a os =>
    match s.handler svc a with
    | none => none
    | some (w, p) => (p.play (scripted rule) os w).map fun e => ⟨e.2, s.ledger⟩
  | .accept pluginId message token x =>
    if .send pluginId message token ∈ s.world.tasks ∧ x ≠ "" ∧ fresh s.ledger pluginId x = true ∧
        (∀ e ∈ s.ledger, e.messageId = message.id → e.retryCount ≠ message.retryCount) then
      some ⟨s.world, ⟨x, pluginId, message.id, message.retryCount⟩ :: s.ledger⟩
    else none
  | .restart => some ⟨.boot s.world.store, s.ledger⟩
  | .elapse ms => some ⟨{ s.world with store := s.world.store.disturb (.elapse ms) }, s.ledger⟩

theorem Step.of_next {freshB : List Issued → PluginId → String → Bool}
    {rule : World → PluginId → ParsedIncomingEvent → Bool}
    (hfresh : ∀ l p x, freshB l p x = true → fresh l p x)
    (hrule : ∀ w p event, rule w p event = true → polls w p event) {a : Move}
    (h : s.next svc freshB rule a = some s') : Step svc fresh polls s s' := by
  cases a with
  | request a os =>
    simp only [Serial.next] at h
    split at h
    next => cases h
    next w p hh =>
      obtain ⟨⟨r, w'⟩, hr, rfl⟩ := Option.map_eq_some_iff.mp h
      exact .request a hh (Prog.runs_of_play (scripted_exec hrule) hr)
  | accept pluginId message token x =>
    simp only [Serial.next] at h
    split at h
    next hc =>
      cases h
      exact .accept x hc.1 hc.2.1 (hfresh _ _ _ hc.2.2.1) hc.2.2.2
    next => cases h
  | restart =>
    cases h
    exact .restart
  | elapse ms =>
    cases h
    exact .elapse ms

def Serial.follow (svc : Service) (fresh : List Issued → PluginId → String → Bool)
    (rule : World → PluginId → ParsedIncomingEvent → Bool) (as : List Move) (s : Serial) :
    Option Serial :=
  match as with
  | [] => some s
  | a :: as => (s.next svc fresh rule a).bind (Serial.follow svc fresh rule as)

/-- What a script leads to is the state of a run. -/
theorem Serially.of_follow {freshB : List Issued → PluginId → String → Bool}
    {rule : World → PluginId → ParsedIncomingEvent → Bool} {as : List Move}
    (hfresh : ∀ l p x, freshB l p x = true → fresh l p x)
    (hrule : ∀ w p event, rule w p event = true → polls w p event)
    (hs : Serially svc fresh polls s) (h : s.follow svc freshB rule as = some s') :
    Serially svc fresh polls s' := by
  induction as generalizing s with
  | nil => exact Option.some.inj h ▸ hs
  | cons a as ih =>
    obtain ⟨s₁, hn, h⟩ := Option.bind_eq_some_iff.mp h
    exact ih (hs.tail (.of_next hfresh hrule hn)) h

theorem exists_serially (svc : Service) (freshB : List Issued → PluginId → String → Bool)
    (rule : World → PluginId → ParsedIncomingEvent → Bool) (as : List Move) (p : Serial → Bool)
    (hfresh : ∀ l p x, freshB l p x = true → fresh l p x)
    (hrule : ∀ w p event, rule w p event = true → polls w p event)
    (h : (Serial.initial.follow svc freshB rule as).any p = true) :
    ∃ s, Serially svc fresh polls s ∧ p s = true := by
  obtain ⟨s, hf, hp⟩ := (Option.any_eq_true _ _).mp h
  exact ⟨s, .of_follow hfresh hrule .refl hf, hp⟩

def neverReusedB (ledger : List Issued) (_ : PluginId) (x : String) : Bool :=
  ∀ e ∈ ledger, e.externalId ≠ x

def freshPerPluginB (ledger : List Issued) (pluginId : PluginId) (x : String) : Bool :=
  ∀ e ∈ ledger, e.pluginId = pluginId → e.externalId ≠ x

theorem neverReused_of_check (l : List Issued) (p : PluginId) (x : String)
    (h : neverReusedB l p x = true) : neverReused l p x := by
  simpa [neverReusedB, neverReused] using h

theorem freshPerPlugin_of_check (l : List Issued) (p : PluginId) (x : String)
    (h : freshPerPluginB l p x = true) : freshPerPlugin l p x := by
  simpa [freshPerPluginB, freshPerPlugin] using h

/-- Polls may return any event. -/
abbrev anyPoll : PollRule :=
  fun _ _ _ => True

theorem exists_serial_run (svc : Service) (as : List Move) (p : Serial → Bool)
    (h : (Serial.initial.follow svc neverReusedB (fun _ _ _ => true) as).any p = true) :
    ∃ s, Serially svc neverReused anyPoll s ∧ p s = true :=
  exists_serially svc neverReusedB (fun _ _ _ => true) as p neverReused_of_check
    (fun _ _ _ _ => trivial) h

/-- A program played to its end from a state has a run from there. -/
theorem runs_of_script {α : Type} {p : Engine α} {os : List Oracle} {w : World}
    {f : Except String α × World → Bool}
    (h : (p.play (scripted fun _ _ _ => true) os w).any f = true) :
    ∃ r w', p.Runs (calmExec anyPoll) w r w' ∧ f (r, w') = true := by
  obtain ⟨⟨r, w'⟩, hp, hf⟩ := (Option.any_eq_true _ _).mp h
  exact ⟨r, w', Prog.runs_of_play (scripted_exec fun _ _ _ _ => trivial) hp, hf⟩

/-- Answers that let every command succeed. -/
def granted : List Oracle :=
  .replicate 40 {}

/-- The sample command is accepted as `X`. -/
def sampleAccepted : List Move :=
  [.request (.enqueue sampleCreate) [{ id := sampleId }],
    .request (.distribute sampleQueue) granted,
    .accept "calin-chirpstack" sampleMessage 0 "X"]

/-- And its send is answered. -/
def sampleSent : List Move :=
  sampleAccepted ++
    [.request (.answer "calin-chirpstack" sampleMessage 0 (.ok "X")) granted]

end Scripts

end DeviceMessaging
