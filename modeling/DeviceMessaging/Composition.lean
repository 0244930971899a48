import DeviceMessaging.Durability
import DeviceMessaging.EffectJoin
import DeviceMessaging.HandlerCommands
import DeviceMessaging.WebhookNotifications

namespace DeviceMessaging

open Effect Prog

/-- The message an event tells about. -/
def WebhookEvent.toPartial (event : WebhookEvent) : PartialMessage where
  id := event.message.id
  pluginId := some event.pluginId
  correlationId := event.message.correlationId
  commandType := event.message.commandType
  deliveryStatus := some event.message.deliveryStatus
  phase := event.message.phase
  device := some event.message.device
  response := event.message.response
  failureHistory := event.message.failureHistory
  unsolicited := event.message.unsolicited

theorem buildWebhookEvent_toPartial {event : WebhookEvent} (hne : event.pluginId ≠ "") :
    buildWebhookEvent event.toPartial event.occurredAt event.eventId = .ok event := by
  unfold buildWebhookEvent WebhookEvent.toPartial
  rw [truthy_some hne]

/-- What the service's `storeAndEmit` finds: the clock readings and the id that the engine
has drawn for the event, and the fate of the command. -/
def script (event : WebhookEvent) (now : Nat) (fault : Option Fault) : List Webhook.Oracle :=
  [{ now := event.occurredAt }, { id := event.eventId }, { now := now }, { fault := fault }] ++
    if fault.isNone then [({} : Webhook.Oracle)] else []

def handOver (event : WebhookEvent) (now : Nat) (fault : Option Fault) (n : Nat) :
    List (Choice Webhook.Handler Webhook.Oracle String) :=
  .start (.storeAndEmit event.toPartial) :: (script event now fault).map (.turn n)

/-- What a choice of the engine makes the webhook service do: the engine's `webhookEnqueue`
is the service's `storeAndEmit`, and a crash is one of both. -/
def drives (a : Choice Handler Oracle Disturbance) (x : Process) (z : Webhook.Process) :
    List (Choice Webhook.Handler Webhook.Oracle String) :=
  match a with
  | .turn i o =>
    match x.waiting i with
    | some (_, .redis (.webhookEnqueue record now)) =>
      handOver record.event now o.fault z.threads.length
    | _ => []
  | .crash => [.crash]
  | _ => []

/-- `main`: the engine and the webhook service in one process. -/
def composition (svc : Service) (msg : Webhook.Messenger) (weather : Weather) :
    Join Cmd Reply String Handler World Oracle Disturbance
      Webhook.Cmd Webhook.Reply String Webhook.Handler Webhook.World Webhook.Oracle String where
  first := engine svc weather
  second := Webhook.service msg weather
  drives := drives
  alone b := match b with
    | .start (.storeAndEmit _) => false
    | .crash => false
    | _ => true

abbrev Whole :=
  Joint Cmd Reply String Handler World Webhook.Cmd Webhook.Reply String Webhook.Handler Webhook.World

def Whole.initial : Whole where
  first := Process.initial
  second := Webhook.Process.initial

abbrev Composed (svc : Service) (msg : Webhook.Messenger) (weather : Weather) : Whole → Prop :=
  (composition svc msg weather).Reachable Whole.initial

variable {svc : Service} {msg : Webhook.Messenger} {weather : Weather} {x y z : Whole}
  {event : WebhookEvent} {now : Nat} {fault : Option Fault}

/-- The service after an event was handed to it. -/
def Webhook.World.received (w : Webhook.World) (event : WebhookEvent) (now : Nat)
    (fault : Option Fault) : Webhook.World :=
  match fault with
  | none => { w.exec (.enqueue { event := event, attemptCount := 0 } now) with
      kicked := w.kicked + 1 }
  | some .refused => w
  | some .lost => w.exec (.enqueue { event := event, attemptCount := 0 } now)

def handedOver (fault : Option Fault) : Webhook.Code Unit :=
  if fault.isNone then .pure () else .fail lostReply

theorem through_store {o : Webhook.Oracle} {os : List Webhook.Oracle} {c : WebhookStoreCmd}
    {f : c.Value → Webhook.Code Unit} {w : Webhook.World} :
    (Webhook.service msg weather).through (o :: os) (Webhook.store c >>= f) w =
      ((Webhook.service msg weather).respond o (.store c) w).bind fun s =>
        match s with
        | (.ok v, w') => (Webhook.service msg weather).through os (f v) w'
        | (.error e, w') => (Webhook.service msg weather).through os (.fail e) w' := by
  refine (System.through_step o os (Webhook.Cmd.store c) _ w).trans ?_
  refine congrArg _ (funext fun s => ?_)
  obtain ⟨r, w'⟩ := s
  cases r <;> rfl

theorem through_storeAndEmit (w : Webhook.World) (hne : event.pluginId ≠ "")
    (hfault : (fault.isNone || weather.faults) = true) :
    (Webhook.service msg weather).through (script event now fault)
        (Webhook.storeAndEmit event.toPartial) w =
      if Webhook.Fresh (.enqueue { event := event, attemptCount := 0 } now) w.log then
        some (handedOver fault, w.received event now fault)
      else none := by
  have hbuild := buildWebhookEvent_toPartial hne
  have hrespond : ∀ (o : Webhook.Oracle) c w, (o.fault.isNone || weather.faults) = true →
      (Webhook.service msg weather).respond o c w = Webhook.respond o c w :=
    fun o c w ho => if_pos ho
  unfold script Webhook.storeAndEmit Webhook.dateNow
  simp only [List.cons_append, List.nil_append, System.through_command]
  rw [hrespond _ _ _ rfl]
  simp only [Webhook.respond, Option.bind_some]
  rw [hrespond _ _ _ rfl]
  simp only [Webhook.respond, Option.bind_some, hbuild, System.through_command]
  rw [hrespond _ _ _ rfl]
  simp only [Webhook.respond, Option.bind_some]
  refine through_store.trans ?_
  rw [hrespond _ _ _ hfault]
  simp only [Webhook.respond, Webhook.execStore]
  split
  next hfresh =>
    cases fault with
    | none => rfl
    | some f => cases f <;> rfl
  next => rfl

/-- The engine's one command has the effect of the service's whole `storeAndEmit`. -/
theorem follow_handOver {z : Webhook.Process} (hne : event.pluginId ≠ "")
    (hfault : (fault.isNone || weather.faults) = true) :
    (Webhook.service msg weather).follow (fun _ _ => true)
        (handOver event now fault z.threads.length) z =
      if Webhook.Fresh (.enqueue { event := event, attemptCount := 0 } now) z.world.log then
        some ⟨z.threads ++ [(.storeAndEmit event.toPartial, handedOver fault)],
          z.world.received event now fault⟩
      else none := by
  unfold handOver
  rw [System.follow_cons]
  refine (System.follow_turns _ z.threads _ _ z.world).trans ?_
  refine (congrArg _ (through_storeAndEmit z.world hne hfault)).trans ?_
  split <;> rfl

/-- The service has accepted the events that the engine has handed over, and is through
with the calls that handed them over. -/
structure Linked (x : Whole) : Prop where
  accepted : Webhook.acceptedIn x.second.world.log = x.first.world.store.persisted.map (·.event)
  through : ∀ t ∈ x.second.threads, ∀ m, t.1 = .storeAndEmit m → t.2.pending = none

theorem acceptedIn_received (w : Webhook.World) : Webhook.acceptedIn (w.received event now fault).log =
    Webhook.acceptedIn w.log ++ if fault = some .refused then [] else [event] := by
  have hexec : Webhook.acceptedIn (w.exec (.enqueue { event := event, attemptCount := 0 } now)).log =
      Webhook.acceptedIn w.log ++ [event] := Webhook.acceptedIn_append _
  cases fault with
  | none => exact hexec
  | some f =>
    cases f with
    | refused => exact (List.append_nil _).symm
    | lost => exact hexec

/-- What the engine's hand-over leaves in its store. -/
theorem persisted_handOver {x y : Process} {i : Nat} {o : Oracle} {h : Handler}
    {record : WebhookStoredRecord} (hy : (engine svc weather).next (.turn i o) x = some y)
    (hw : x.waiting i = some (h, .redis (.webhookEnqueue record now))) :
    (o.fault.isNone || weather.faults) = true ∧ y.world.store.persisted =
      x.world.store.persisted ++ if o.fault = some .refused then [] else [record] := by
  obtain ⟨h', c, k, r, w, ht, hr, hworld, -⟩ := System.waiting_turn hy
  rw [hworld]
  obtain ⟨k', ht'⟩ := Config.get_of_waiting hw
  cases ht.symm.trans ht'
  simp only [engine] at hr
  split at hr
  next hallowed =>
    refine ⟨hallowed, ?_⟩
    simp only [respond, execRedis] at hr
    split at hr
    next =>
      split at hr <;> cases hr <;> rename_i hf <;> simp [hf, Store.exec, Store.note]
    next => cases hr
  next => cases hr

theorem reached_emitted {ok : Process → Choice Handler Oracle Disturbance → Prop} {x : Process}
    {i : Nat} {h : Handler} {record : WebhookStoredRecord} (hx : Reached svc weather ok x)
    (hw : x.waiting i = some (h, .redis (.webhookEnqueue record now))) : record.Emitted := by
  rcases reached_may hx hw with hm | hm
  · exact hm
  · cases h with
    | task t => cases t <;> exact hm.elim
    | _ => exact hm.elim

/-- Without a hand-over the engine's store remembers the same events. -/
theorem persisted_same {a : Choice Handler Oracle Disturbance} {x y : Process}
    (hy : (engine svc weather).next a x = some y)
    (hno : ∀ i o h record now, a = .turn i o →
      x.waiting i ≠ some (h, .redis (.webhookEnqueue record now))) :
    y.world.store.persisted = x.world.store.persisted := by
  rcases store_next hy with hs | ⟨i, o, h, c, ha, hw, -, hs⟩ | ⟨d, -, hs⟩
  · rw [hs]
  · rw [hs]
    cases c with
    | webhookEnqueue record now => exact absurd hw (hno i o h record now ha)
    | _ => rfl
  · rw [hs]
    rfl

/-- A command that hands over no event. -/
def Webhook.Cmd.Spares (c : Webhook.Cmd) : Prop :=
  ∀ r now, c ≠ .store (.enqueue r now)

theorem store_spares {c : WebhookStoreCmd} (hc : ∀ r now, c ≠ .enqueue r now) :
    (Webhook.store c).Issues Webhook.Cmd.Spares := by
  unfold Webhook.store
  have hspares : (Webhook.Cmd.store c).Spares := fun r now he => hc r now (Webhook.Cmd.store.inj he)
  refine keeps_bind (issues_command hspares) fun r => ?_
  cases r with
  | ok v => exact keeps_pure v
  | error e => exact keeps_throw e

theorem command_spares {c : Webhook.Cmd} (hc : ∀ c', c ≠ .store c') :
    (Prog.command c : Webhook.Code (Webhook.Reply c)).Issues Webhook.Cmd.Spares :=
  issues_command fun _ _ => hc _

theorem onFailure_spares (record : AttemptedRecord) (lastError : String) :
    (Webhook.onFailure msg record lastError).Issues Webhook.Cmd.Spares := by
  unfold Webhook.onFailure
  dsimp only
  split
  next => exact store_spares fun _ _ he => by cases he
  next =>
    refine keeps_bind (command_spares fun _ he => by cases he) fun now => ?_
    exact store_spares fun _ _ he => by cases he

theorem onResponse_spares (record : AttemptedRecord) (eventId : String) (outcome : Webhook.Outcome) :
    (Webhook.onResponse msg record eventId outcome).Issues Webhook.Cmd.Spares := by
  cases outcome with
  | error message => exact onFailure_spares record message
  | ok status =>
    unfold Webhook.onResponse
    dsimp only
    split
    next => exact store_spares fun _ _ he => by cases he
    next =>
      split
      next => exact onFailure_spares record _
      next => exact store_spares fun _ _ he => by cases he

theorem deliverOne_spares (eventId : String) :
    (Webhook.deliverOne msg eventId).Issues Webhook.Cmd.Spares := by
  refine keeps_bind (store_spares fun _ _ he => by cases he) fun record => ?_
  cases record with
  | none => exact store_spares fun _ _ he => by cases he
  | some record =>
    refine keeps_bind (command_spares fun _ he => by cases he) fun now => ?_
    refine keeps_bind (store_spares fun _ _ he => by cases he) fun _ => ?_
    refine keeps_bind (command_spares fun _ he => by cases he) fun _ => ?_
    refine keeps_bind (command_spares fun _ he => by cases he) fun outcome => ?_
    exact onResponse_spares record eventId outcome

theorem drainLink_spares : (Webhook.drainLink msg).Issues Webhook.Cmd.Spares := by
  have hall : ∀ ids : List String, (ids.forM (Webhook.deliverOne msg)).Issues Webhook.Cmd.Spares := by
    intro ids
    induction ids with
    | nil => exact keeps_pure ()
    | cons id ids ih => exact keeps_bind (deliverOne_spares id) fun _ => ih
  refine keeps_bind (keeps_tryCatch ?_ fun _ => keeps_pure ()) fun _ =>
    command_spares fun _ he => by cases he
  refine keeps_bind (command_spares fun _ he => by cases he) fun now => ?_
  exact keeps_bind (store_spares fun _ _ he => by cases he) fun ids => hall ids

/-- No handler but `storeAndEmit` hands over an event. -/
theorem handlerProgram_spares (h : Webhook.Handler) : (Webhook.handlerProgram msg h).Issues fun c =>
    c.Spares ∨ ∃ m, h = .storeAndEmit m := by
  cases h with
  | storeAndEmit m =>
    exact Issues.mono (issues_any _) fun _ _ => .inr ⟨m, rfl⟩
  | timer =>
    have htimer : (Webhook.drainDue).Issues Webhook.Cmd.Spares :=
      command_spares fun _ he => by cases he
    exact Issues.mono htimer fun _ hc => .inl hc
  | drain link => exact Issues.mono drainLink_spares fun _ hc => .inl hc

theorem acceptedIn_spares {o : Webhook.Oracle} {c : Webhook.Cmd} {r : Webhook.Reply c}
    {w w' : Webhook.World} (hc : c.Spares) (hr : Webhook.respond o c w = some (r, w')) :
    Webhook.acceptedIn w'.log = Webhook.acceptedIn w.log := by
  cases c with
  | store c =>
    have hexec : Webhook.acceptedIn (w.exec c).log = Webhook.acceptedIn w.log :=
      Webhook.acceptedIn_exec fun r now he => hc r now (congrArg _ he)
    simp only [Webhook.respond, Webhook.execStore] at hr
    split at hr
    next =>
      split at hr <;> cases hr
      · exact hexec
      · rfl
      · exact hexec
    next => cases hr
  | fetch request =>
    cases hr
    exact (Webhook.acceptedIn_append _).trans (List.append_nil _)
  | response request =>
    cases hr
    exact (Webhook.acceptedIn_append _).trans (List.append_nil _)
  | _ =>
    cases hr
    rfl

theorem linked_alone {b : Choice Webhook.Handler Webhook.Oracle String}
    (hx : Composed svc msg weather x) (hl : Linked x)
    (hb : (composition svc msg weather).alone b = true)
    (hz : (Webhook.service msg weather).next b x.second = some y.second)
    (hfirst : y.first = x.first) : Linked y := by
  have hstore : y.first.world.store = x.first.world.store := by rw [hfirst]
  suffices hkeep : Webhook.acceptedIn y.second.world.log = Webhook.acceptedIn x.second.world.log ∧
      ∀ t ∈ y.second.threads, ∀ m, t.1 = .storeAndEmit m → t.2.pending = none by
    exact ⟨by rw [hkeep.1, hl.accepted, hstore], hkeep.2⟩
  rcases System.next_cases hz with ⟨h, w, rfl, hw, hy⟩ | ⟨i, o, h, c, k, r, w, rfl, ht, hr, hy⟩ |
    ⟨d, w, rfl, hw, hy⟩ | ⟨w, rfl, hw, hy⟩ <;> rw [hy]
  · have hw : Webhook.startHandler h x.second.world = some w := hw
    have hlog : w.log = x.second.world.log := by
      unfold Webhook.startHandler at hw
      split at hw
      next => split at hw <;> cases hw; rfl
      next => cases hw; rfl
    refine ⟨congrArg _ hlog, fun t ht m hm => ?_⟩
    rcases List.mem_append.mp ht with ht | ht
    · exact hl.through t ht m hm
    · rw [List.mem_singleton.mp ht] at hm
      obtain rfl : h = .storeAndEmit m := hm
      cases hb
  · have hnot : ∀ m, h ≠ .storeAndEmit m := by
      intro m hm
      have hover := hl.through _ (List.mem_of_getElem? ht) m hm
      cases hover
    have hspares : c.Spares := by
      have hmay := System.Reachable.may (S := Webhook.service msg weather) handlerProgram_spares rfl
        hx.second (i := i) (h := h) (c := c) (by simp [Config.waiting, ht, Prog.pending])
      exact hmay.resolve_right (not_exists.mpr hnot)
    simp only [Webhook.service] at hr
    split at hr
    next =>
      refine ⟨acceptedIn_spares hspares hr, fun t ht' m hm => ?_⟩
      rcases List.mem_or_eq_of_mem_set ht' with ht' | rfl
      · exact hl.through t ht' m hm
      · exact absurd hm (hnot m)
    next => cases hr
  · simp only [Webhook.service] at hw
    split at hw <;> cases hw
    exact ⟨(Webhook.acceptedIn_append _).trans (List.append_nil _), hl.through⟩
  · cases hb

theorem linked_driven {a : Choice Handler Oracle Disturbance} (hx : Composed svc msg weather x)
    (hl : Linked x) (ha : (engine svc weather).next a x.first = some y.first)
    (hz : (Webhook.service msg weather).follow (fun _ _ => true) (drives a x.first x.second)
      x.second = some y.second) : Linked y := by
  by_cases hhand : ∃ i o h record now, a = .turn i o ∧
      x.first.waiting i = some (h, .redis (.webhookEnqueue record now))
  · obtain ⟨i, o, h, record, now, rfl, hw⟩ := hhand
    obtain ⟨hallowed, hstore⟩ := persisted_handOver ha hw
    have hdrives : drives (.turn i o) x.first x.second =
        handOver record.event now o.fault x.second.threads.length := by
      simp only [drives, hw]
    rw [hdrives, follow_handOver (reached_emitted hx.first hw).1 hallowed] at hz
    split at hz
    next =>
      have hz := Option.some.inj hz
      refine ⟨?_, fun t ht m hm => ?_⟩
      · rw [← hz, hstore, List.map_append, ← hl.accepted]
        refine (acceptedIn_received _).trans (congrArg _ ?_)
        split <;> rfl
      · rw [← hz] at ht
        rcases List.mem_append.mp ht with ht | ht
        · exact hl.through t ht m hm
        · rw [List.mem_singleton.mp ht]
          unfold handedOver
          dsimp only
          split <;> rfl
    next => cases hz
  · have hstore := persisted_same ha fun i o h record now he hw => hhand ⟨i, o, h, record, now, he, hw⟩
    suffices hkeep : Webhook.acceptedIn y.second.world.log = Webhook.acceptedIn x.second.world.log ∧
        ∀ t ∈ y.second.threads, ∀ m, t.1 = .storeAndEmit m → t.2.pending = none by
      exact ⟨by rw [hkeep.1, hl.accepted, hstore], hkeep.2⟩
    have hsame : (Webhook.service msg weather).follow (fun _ _ => true) [] x.second =
        some y.second → Webhook.acceptedIn y.second.world.log =
          Webhook.acceptedIn x.second.world.log ∧
        ∀ t ∈ y.second.threads, ∀ m, t.1 = .storeAndEmit m → t.2.pending = none := by
      intro he
      rw [← Option.some.inj he]
      exact ⟨rfl, hl.through⟩
    cases a with
    | crash =>
      obtain ⟨u, hu, hz⟩ := Option.bind_eq_some_iff.mp ((System.follow_cons _ _ _).symm.trans hz)
      rw [← Option.some.inj hz]
      obtain ⟨w, hw, rfl⟩ := Option.map_eq_some_iff.mp hu
      simp only [Webhook.service] at hw
      split at hw <;> cases hw
      exact ⟨rfl, fun t ht => absurd ht List.not_mem_nil⟩
    | start h => exact hsame hz
    | disturb d => exact hsame hz
    | turn i o =>
      refine hsame ?_
      cases hw : x.first.waiting i with
      | none => simpa only [drives, hw] using hz
      | some t =>
        obtain ⟨h, c⟩ := t
        have hnil : drives (.turn i o) x.first x.second = [] := by
          simp only [drives, hw]
          split
          next record now he =>
            exact absurd ⟨i, o, _, record, now, rfl, hw.trans he⟩ hhand
          next => rfl
        rwa [hnil] at hz

theorem composed_linked (hx : Composed svc msg weather x) : Linked x := by
  refine hx.linked ⟨rfl, fun t ht => by cases ht⟩ ?_ ?_
  · intro x y a hx hl ha hz
    exact linked_driven hx hl ha hz
  · intro x y b hx hl hb hz hfirst
    exact linked_alone hx hl hb hz hfirst

/-- The service never holds the engine up: the engine makes each of its steps in the
composition, as long as `ulid` draws new ids for the events. -/
theorem composed_goes_on {a : Choice Handler Oracle Disturbance} {u : Process}
    (hx : Composed svc msg weather x) (ha : (engine svc weather).next a x.first = some u)
    (hfresh : ∀ i o h record now, a = .turn i o →
      x.first.waiting i = some (h, .redis (.webhookEnqueue record now)) →
      record.event.eventId ∉ x.first.world.store.persisted.map (·.event.eventId)) :
    ∃ z, (composition svc msg weather).next (.first a) x = some ⟨u, z⟩ := by
  suffices hz : ∃ z, (Webhook.service msg weather).follow (fun _ _ => true)
      (drives a x.first x.second) x.second = some z by
    obtain ⟨z, hz⟩ := hz
    refine ⟨z, ?_⟩
    have ha : (composition svc msg weather).first.next a x.first = some u := ha
    have hz : (composition svc msg weather).second.follow (fun _ _ => true)
      ((composition svc msg weather).drives a x.first x.second) x.second = some z := hz
    simp only [Join.next, ha, hz, Option.bind_eq_bind, Option.bind_some, Option.pure_def]
  cases a with
  | start h => exact ⟨x.second, rfl⟩
  | disturb d => exact ⟨x.second, rfl⟩
  | crash =>
    obtain ⟨w, hw, -⟩ := Option.map_eq_some_iff.mp ha
    have hcrashes : weather.crashes = true := by
      simp only [engine] at hw
      split at hw
      next hc => exact hc
      next => cases hw
    refine ⟨⟨[], .boot x.second.world.keys x.second.world.log⟩, ?_⟩
    refine (System.follow_cons _ _ _).trans ?_
    simp only [System.next, Webhook.service, if_pos hcrashes]
    rfl
  | turn i o =>
    by_cases hhand : ∃ h record now, x.first.waiting i = some (h, .redis (.webhookEnqueue record now))
    · obtain ⟨h, record, now, hw⟩ := hhand
      have hdrives : drives (.turn i o) x.first x.second =
          handOver record.event now o.fault x.second.threads.length := by
        simp only [drives, hw]
      have hnew : Webhook.Fresh (.enqueue { event := record.event, attemptCount := 0 } now)
          x.second.world.log := by
        have hids : (Webhook.acceptedIn x.second.world.log).map (·.eventId) =
            x.first.world.store.persisted.map (·.event.eventId) := by
          rw [(composed_linked hx).accepted, List.map_map]
          rfl
        change record.event.eventId ∉ _
        rw [hids]
        exact hfresh i o h record now rfl hw
      rw [hdrives, follow_handOver (reached_emitted hx.first hw).1 (persisted_handOver ha hw).1,
        if_pos hnew]
      exact ⟨_, rfl⟩
    · refine ⟨x.second, ?_⟩
      have hnil : drives (.turn i o) x.first x.second = [] := by
        simp only [drives]
        split
        next h record now hw => exact absurd ⟨h, record, now, hw⟩ hhand
        next => rfl
      rw [hnil]
      rfl

/-- What was handed over stays so. -/
theorem persisted_later (hyz : (composition svc msg weather).Reachable y z)
    {record : WebhookStoredRecord} (hr : record ∈ y.first.world.store.persisted) :
    record ∈ z.first.world.store.persisted := by
  refine hyz.first.invariant (I := fun x => record ∈ x.world.store.persisted) hr ?_
  intro u v a hu _ hv
  by_cases hhand : ∃ i o h record now, a = .turn i o ∧
      u.waiting i = some (h, .redis (.webhookEnqueue record now))
  · obtain ⟨i, o, h, record', now, rfl, hw⟩ := hhand
    rw [(persisted_handOver hv hw).2]
    exact List.mem_append_left _ hu
  · rw [persisted_same hv fun i o h record now he hw => hhand ⟨i, o, h, record, now, he, hw⟩]
    exact hu

/-- The event tells that the message has ended. -/
def WebhookEvent.Ends (event : WebhookEvent) (id : MessageId) : Prop :=
  event.message.deliveryStatus.IsTerminal ∧ event.message.id = some id

theorem ends_of_terminalOf {record : WebhookStoredRecord} {id : MessageId}
    (h : record.terminalOf = some id) : record.event.Ends id := by
  unfold WebhookStoredRecord.terminalOf at h
  split at h
  next hterminal => exact ⟨hterminal, h⟩
  next => cases h

/-- The event is in the hands of the service: it waits for its delivery, or the consumer has
acknowledged it, or it is a dead letter, and all that was posted under its id is the event. -/
structure InHands (msg : Webhook.Messenger) (z : Whole) (event : WebhookEvent) : Prop where
  accepted : event ∈ Webhook.acceptedIn z.second.world.log
  stands : Webhook.Pending msg z.second.world event ∨ Webhook.Completed msg z.second.world event ∨
    Webhook.Dead z.second.world event
  posts : ∀ req, .posted req ∈ z.second.world.log → req.body.eventId = event.eventId →
    req = Webhook.request msg event

/-- In every interleaving of the engine with the webhook service, whatever commands fail and
whenever the process crashes: the service accepts the events that the engine hands over, in
their order, and no others. When a message goes away, it has expired, or a cancel has claimed
it, or there is an event that tells its end and that is in the service's hands in every later
state: it waits for its delivery, or the consumer has acknowledged it, or it is a dead letter;
and all that is ever posted under its id is that event. -/
theorem composed_notifies (hw : svc.webhook = true) (hx : Composed svc msg weather x)
    {a : Join.Pick Handler Oracle Disturbance Webhook.Handler Webhook.Oracle String}
    (hy : (composition svc msg weather).next a x = some y) :
    (∀ z, (composition svc msg weather).Reachable y z →
      Webhook.acceptedIn z.second.world.log = z.first.world.store.persisted.map (·.event)) ∧
    ∀ id, x.first.world.store.redis.messages id ≠ none →
      y.first.world.store.redis.messages id = none →
      a = .first (.disturb (.expireMessage id)) ∨
      (∃ i o m c, a = .first (.turn i o) ∧
        x.first.waiting i = some (.task (.cancelMessage m), c) ∧ c.purges = some id) ∨
      ∃ event, event.Ends id ∧
        ∀ z, (composition svc msg weather).Reachable y z → InHands msg z event := by
  have hcy : Composed svc msg weather y := .step a hx hy
  refine ⟨fun z hyz => (composed_linked (hcy.trans hyz)).accepted, fun id hm hn => ?_⟩
  rcases Join.next_cases hy with ⟨b, rfl, hb, -⟩ | ⟨b, -, -, -, hfirst⟩
  · rcases gone_reported hw hx.first hb hm hn with rfl | ⟨i, o, m, c, rfl, hwait, hc⟩ |
      ⟨record, hr, hends⟩
    · exact .inl rfl
    · exact .inr (.inl ⟨i, o, m, c, rfl, hwait, hc⟩)
    · refine .inr (.inr ⟨record.event, ends_of_terminalOf hends, fun z hyz => ?_⟩)
      have hcz : Composed svc msg weather z := hcy.trans hyz
      have haccepted : record.event ∈ Webhook.acceptedIn z.second.world.log := by
        rw [(composed_linked hcz).accepted]
        exact List.mem_map_of_mem (persisted_later (.trans (.step _ .init hy) hyz) hr)
      have hkept := (Webhook.reached_ordered hcz.second).kept
      refine ⟨haccepted, (hkept.condition haccepted).1, fun req hreq hid => ?_⟩
      obtain ⟨event, he, rfl⟩ := hkept.posts req hreq
      rw [hkept.unique record.event haccepted event he hid.symm]
  · rw [hfirst] at hn
    exact absurd hn hm

/-- The sample command succeeds, and the service posts what it was handed. -/
def notifiedSuccess : List (Join.Pick Handler Oracle Disturbance Webhook.Handler Webhook.Oracle
    String) :=
  (sampleSend ++ [Choice.start (Handler.ingress "calin-chirpstack" (sampleEvent .DELIVERY_SUCCESSFUL))] ++
    turns 4 7 { id := "01END" }).map .first

def postedSuccess : List (Join.Pick Handler Oracle Disturbance Webhook.Handler Webhook.Oracle
    String) :=
  (Choice.start (.drain 0) :: Webhook.act 2 14 {}).map .second

def delivered (z : Whole) : Bool :=
  (z.second.world.keys.payload "01END").isNone && z.second.world.log.all (fun
    | .deadLettered _ => false
    | _ => true) &&
  (Webhook.acceptedIn z.second.world.log).all fun event =>
    !(decide event.message.deliveryStatus.IsTerminal) || event.eventId == "01END"

/-- A message that succeeds goes away, and the consumer acknowledges the event of its end. -/
theorem success_acknowledged : ∃ z : Whole, ∃ event, event.Ends sampleId ∧
    Webhook.Completed Webhook.hooked z.second.world event := by
  obtain ⟨x, hx, hx'⟩ := (Option.any_eq_true _ _).mp
    (by decide +kernel : ((composition vendorService Webhook.hooked {}).follow notifiedSuccess
      Whole.initial).any (fun x => (x.first.world.store.redis.messages sampleId).isSome &&
        ((x.first.waiting 4).any fun t => !t.1.isCancel) &&
        ((composition vendorService Webhook.hooked {}).next (.first (.turn 4 {})) x).any fun y =>
          (y.first.world.store.redis.messages sampleId).isNone &&
          ((composition vendorService Webhook.hooked {}).follow postedSuccess y).any delivered)
      = true)
  simp only [Bool.and_eq_true, Option.any_eq_true] at hx'
  obtain ⟨⟨hm, t, ht, htc⟩, y, hy, hn, z, hz, hdelivered⟩ := hx'
  unfold delivered at hdelivered
  rw [Bool.and_eq_true, Bool.and_eq_true] at hdelivered
  obtain ⟨⟨hpayload, hletters⟩, hends⟩ := hdelivered
  have hcomposed : Composed vendorService Webhook.hooked {} x := .of_follow .init hx
  rcases (composed_notifies rfl hcomposed hy).2 sampleId
    (Option.isSome_iff_ne_none.mp hm) (Option.isNone_iff_eq_none.mp hn) with
    h | ⟨i, o, m, c, h, hw, -⟩ | ⟨event, hevent, hlater⟩
  · cases h
  · cases h
    rw [ht] at hw
    cases hw
    cases htc
  · have hhands := hlater z (.of_follow .init hz)
    refine ⟨z, event, hevent, ?_⟩
    have hid : event.eventId = "01END" := by
      have hor := List.all_eq_true.mp hends event hhands.accepted
      rw [decide_eq_true hevent.1, Bool.not_true, Bool.false_or] at hor
      exact eq_of_beq hor
    rcases hhands.stands with hpending | hcompleted | hdead
    · obtain ⟨r, hr, -⟩ := hpending.stored
      rw [hid] at hr
      rw [hr] at hpayload
      cases hpayload
    · exact hcompleted
    · obtain ⟨r, -, hr, -⟩ := hdead.letter
      exact absurd (List.all_eq_true.mp hletters _ hr) Bool.false_ne_true

end DeviceMessaging
