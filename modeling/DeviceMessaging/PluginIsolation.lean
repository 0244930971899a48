import DeviceMessaging.EventRuns
import DeviceMessaging.StatusQueue

namespace DeviceMessaging

open Effect

variable {svc : Service} {settled : DeliveryPattern → Prop} {ledger : List Issued}
  {fresh : Freshness} {polls : PollRule} {s : Serial} {w w' : World} {m x : MessageId} {a : Attempt}
  {plugin : DeliveryPlugin} {event : ParsedIncomingEvent}

/-- What the event says is something to do for a message: it succeeded, it is on
its way and waits for the relay node, or it failed and this is final, or it waits
in the stage its status names. -/
def Acts (svc : Service) (plugin : DeliveryPlugin) (event : ParsedIncomingEvent) (w : World)
    (m : MessageId) : Prop :=
  event.deliveryStatus = .DELIVERY_SUCCESSFUL ∨
  (event.deliveryStatus = .SENT_TO_DEVICE ∧ plugin.deliveryPattern = .PUSH ∧
    m ∈ w.store.redis.queues .relayNode) ∨
  (event.deliveryStatus = .DELIVERY_FAILED ∧ ∃ message status stage,
    w.loaded m = some message ∧ message.deliveryStatus = some status ∧
    stageForStatus status plugin.deliveryPattern = some stage ∧
    (isFinalFailure svc (eventFailure event) message.retryCount = true ∨
      m ∈ w.store.redis.queues (stageKeyFor stage plugin.id)))

/-- The id of the event leads to the message, and there is something to do for it. -/
def Hits (svc : Service) (plugin : DeliveryPlugin) (event : ParsedIncomingEvent) (w : World)
    (m : MessageId) : Prop :=
  event.unsolicited = false ∧ ∃ y, truthy event.deliveryQueueId = some y ∧
    w.store.redis.externals y = some m ∧ Acts svc plugin event w m

theorem Gone.not_untouched (hg : Gone w' m) (hs : StandsAt svc settled ledger w m a) :
    ¬ Untouched ledger m w w' := by
  intro hu
  obtain ⟨h, hh, -, -⟩ := hs
  cases hg.hash.symm.trans (hu.hash.trans hh)

/-- A message that has come to stand elsewhere was touched. -/
theorem StandsAt.not_untouched {a' : Attempt} {q : QueueKey}
    (hs : StandsAt svc settled ledger w' m a') (hq : m ∈ w.store.redis.queues q)
    (hne : a'.station ≠ some q) : ¬ Untouched ledger m w w' := by
  intro hu
  obtain ⟨h, -, -, hp⟩ := hs
  exact hne (hp.queues q ((hu.queues q).mpr hq))

theorem not_retry_of_indexed {stage : StageName} {pattern : DeliveryPattern} {id : PluginId}
    (hi : a.status.IsIndexed) (hs : stageForStatus a.status pattern = some stage) :
    stageKeyFor stage id ≠ .retry := by
  intro hk
  have hstage : stage = .retry := by cases stage <;> first | rfl | cases hk
  subst hstage
  rcases hi with hi | hi <;> rw [hi] at hs
  · cases pattern <;> cases hs
  · cases hs

/-- An applied event involves its message exactly when it acts on it. -/
theorem Applied.uninvolved_iff {out : StageOutcome} (hs : StandsAt svc settled ledger w m a)
    (hi : a.status.IsIndexed) (he : Applied svc settled ledger w plugin event m a out w') :
    Uninvolved ledger m w w' ↔ ¬ Acts svc plugin event w m := by
  obtain ⟨message, hm, hstatus, hcount⟩ := hs.loaded
  cases he with
  | transmitted hd hp hq ho hs' =>
    refine ⟨fun hu => absurd hu.toUntouched (hs'.not_untouched hq ?_), fun hn => ?_⟩
    · simp [Attempt.station, Attempt.moved, stationKey, stageForStatus, stageKeyFor, stages]
    · exact absurd (.inr (.inl ⟨hd, hp, hq⟩)) hn
  | elsewhere hd hp hq hr ho =>
    refine ⟨fun _ => ?_, fun _ => ho m⟩
    rintro (hd' | ⟨-, -, hq'⟩ | ⟨hd', -⟩)
    · cases hd.symm.trans hd'
    · exact hq hq'
    · cases hd.symm.trans hd'
  | @failed stage _ _ hd hstage hf =>
    cases hf with
    | removed hfinal hg =>
      refine ⟨fun hu => absurd hu.toUntouched (hg.not_untouched hs), fun hn => absurd ?_ hn⟩
      exact .inr (.inr ⟨hd, message, _, stage, hm, hstatus, hstage, .inl (hcount ▸ hfinal)⟩)
    | retried _ hq hs' =>
      refine ⟨fun hu => absurd hu.toUntouched (hs'.not_untouched hq ?_), fun hn => absurd ?_ hn⟩
      · rw [station_retried]
        exact fun he => not_retry_of_indexed hi hstage (Option.some.inj he).symm
      · exact .inr (.inr ⟨hd, message, _, stage, hm, hstatus, hstage, .inr hq⟩)
    | absent hfinal hq =>
      refine ⟨fun _ => ?_, fun _ => .refl⟩
      rintro (hd' | ⟨hd', -⟩ | ⟨-, message', status, stage', hm', hst', hstage', hact⟩)
      · cases hd.symm.trans hd'
      · cases hd.symm.trans hd'
      · cases hm.symm.trans hm'
        cases hstatus.symm.trans hst'
        cases hstage.symm.trans hstage'
        rcases hact with hact | hact
        · rw [hcount] at hact
          exact absurd (hfinal.symm.trans hact) (by decide)
        · exact hq hact
  | delivered hd hg ho =>
    exact ⟨fun hu => absurd hu.toUntouched (hg.not_untouched hs), fun hn => absurd (.inl hd) hn⟩
  | nothing hd hf ht =>
    refine ⟨fun _ => ?_, fun _ => .refl⟩
    rintro (hd' | ⟨hd', hp, -⟩ | ⟨hd', -⟩)
    · exact hd hd'
    · exact ht ⟨hd', hp⟩
    · exact hf hd'

theorem Applied.only {out : StageOutcome}
    (he : Applied svc settled ledger w plugin event m a out w') : Only ledger m w w' := by
  cases he with
  | transmitted _ _ _ ho => exact ho
  | elsewhere _ _ _ _ ho => exact .of_all ho
  | failed _ _ hf =>
    cases hf with
    | removed _ _ ho => exact ho
    | retried _ _ _ ho => exact ho
    | absent => exact .refl
  | delivered _ _ ho => exact ho
  | nothing => exact .refl

/-- An event involves just the messages it hits. -/
theorem Processed.uninvolved_iff {out : StageOutcome}
    (hev : Processed svc settled ledger w plugin event out w') (x : MessageId) :
    Uninvolved ledger x w w' ↔ ¬ Hits svc plugin event w x := by
  cases hev with
  | unsolicited hu ho =>
    exact iff_of_true (ho x) fun hh => by cases hu.symm.trans hh.1
  | unnamed hu hy =>
    refine iff_of_true .refl ?_
    rintro ⟨-, y, hy', -⟩
    cases hy.symm.trans hy'
  | unknown hu hy hm =>
    refine iff_of_true .refl ?_
    rintro ⟨-, y, hy', hm', -⟩
    cases hy.symm.trans hy'
    cases hm.symm.trans hm'
  | @applied y m a _ _ hu hy hm hs hi he =>
    by_cases hx : x = m
    · subst hx
      rw [he.uninvolved_iff hs hi]
      refine not_congr ⟨fun ha => ⟨hu, y, hy, hm, ha⟩, ?_⟩
      rintro ⟨-, y', hy', hm', ha⟩
      exact ha
    · refine iff_of_true (he.only x hx) ?_
      rintro ⟨-, y', hy', hm', -⟩
      cases hy.symm.trans hy'
      exact hx (Option.some.inj (hm'.symm.trans hm))

/-- What follows a vendor's answer to a poll. -/
def pollAnswer (svc : Service) (plugin : DeliveryPlugin)
    (answer : Except VendorError (Option ParsedIncomingEvent)) : Engine StageOutcome := do
  let parsedEvent ← awaitVendor answer
  match parsedEvent with
  | none => return .rescheduled
  | some parsedEvent => processEvent svc parsedEvent plugin

theorem pollTask_eq (c : StageActionContext) :
    pollTask svc c = (do
      let answer ← Prog.command (Cmd.fetchStatus c.plugin.id c.message)
      pollAnswer svc c.plugin answer) :=
  rfl

/-- In every interleaving, with faults, crashes and expiry, whose applications stand: whatever
command a thread that applies an event issues, it leaves the messages alone that are no business
of the event. And where handlers run one after the other, an event involves none of the messages
of other plugins, and a poll none but its own, exactly when its id does not lead to such a
message with something to do for it. -/
theorem reached_isolated (svc : Service) (weather : Weather) :
    (∀ x parts a y, EventRun svc weather (ApplicationStands svc) x parts →
      ApplicationStands svc x parts a → (engine svc weather).next a x = some y →
      ∀ i o A q c, a = .turn i o → parts i = some (A, q) → q.pending = some c →
        (∃ h, x.waiting i = some (h, c)) ∧
          ∀ m, A.OffLimits x.world m → x.world.store.LeftAlone y.world.store m) ∧
    ∀ fresh polls s plugin event, Serially svc fresh polls s →
      (∀ r w', (processEvent svc event plugin).Runs (calmExec polls) s.world r w' →
        ((∀ x, Foreign s.world plugin x → Uninvolved s.ledger x s.world w') ↔
          ∀ x, Foreign s.world plugin x → ¬ Hits svc plugin event s.world x)) ∧
      ∀ m r w', (pollAnswer svc plugin (.ok (some event))).Runs (calmExec polls) s.world r w' →
        ((∀ x, x ≠ m → Uninvolved s.ledger x s.world w') ↔
          ∀ x, x ≠ m → ¬ Hits svc plugin event s.world x) := by
  constructor
  · intro x parts a y hx ha hy i o A q c hturn hpart hq
    exact application_step hx ha hy hturn hpart hq
  · intro fresh polls s plugin event hs
    have hS := hs.sound (not_settled svc polls)
    have hall : ∀ r w', (processEvent svc event plugin).Runs (calmExec polls) s.world r w' →
        ∀ x, Uninvolved s.ledger x s.world w' ↔ ¬ Hits svc plugin event s.world x := by
      intro r w' hr x
      obtain ⟨out, rfl, hev⟩ := processEvent_runs hS hr
      exact hev.uninvolved_iff x
    constructor
    · intro r w' hr
      exact forall₂_congr fun x _ => hall r w' hr x
    · intro m r w' hr
      exact forall₂_congr fun x _ => hall r w' hr x

/-- A command of another vendor, which numbers its tasks the same way. -/
def otherId : MessageId :=
  "01ARZ3NDEKTSV4RRFFQ69G5FB0"

def otherCreate : CreateDeviceMessage :=
  { pullCreate with
    pluginId := "calin-api-v2"
    pluginId_ne := calinApiV2_named }

def otherMessage : DeviceMessage :=
  { pullMessage with
    id := otherId
    pluginId := some "calin-api-v2"
    concurrencyRateLimitKey := some ⟨"calin-api-v2", "dcu", "7"⟩ }

def otherSent : List Move :=
  [.request (.enqueue otherCreate) [{ id := otherId }],
    .request (.distribute (buildInitialQueueKey "calin-api-v2" "dcu" "7")) granted,
    .accept "calin-api-v2" otherMessage 1 "1001",
    .request (.answer "calin-api-v2" otherMessage 1 (.ok "1001")) granted]

/-- A message of another vendor waits while the sample command is reported delivered. -/
def deliveredBeside : List (Choice Handler Oracle Disturbance) :=
  List.flatten [
    sampleSend,
    [.start (.enqueue otherCreate), .turn 4 { id := otherId },
      .start (.ingress "calin-chirpstack" (sampleEvent .DELIVERY_SUCCESSFUL))], turns 5 7 {}]

/-- The message was requested, and its hash is read, as the plugin's, and it is the one polled. -/
def Application.checkOwn (A : Application) (w : World) (m : MessageId) : Bool :=
  (w.store.enqueued.all fun e => e.1 ≠ m || e.2.pluginId = A.plugin.id) &&
    ((w.loaded m).all fun message => message.pluginId = some A.plugin.id) &&
    A.polled.all fun p => p = m

def checkApplications (x : Process) (parts : Nat → EventPart)
    (a : Choice Handler Oracle Disturbance) : Bool :=
  match a with
  | .turn i _ =>
    match parts i with
    | some (A, .step (.redis (.hgetall m)) _) => A.checkOwn x.world m
    | some (A, .step (.redis (.zscore _ m)) _) => A.checkOwn x.world m
    | some (A, .step (.redis (.moveMessageBetweenQueues b)) _) => A.checkOwn x.world b.messageId
    | _ => true
  | _ => true

theorem Application.not_offLimits {A : Application} (h : A.checkOwn w m = true) :
    ¬ A.OffLimits w m := by
  simp only [checkOwn, Bool.and_eq_true, List.all_eq_true, Option.all_eq_true,
    decide_eq_true_eq, Bool.or_eq_true] at h
  obtain ⟨⟨hrequest, hhash⟩, hpolled⟩ := h
  rintro (⟨create, hcreate, hne⟩ | ⟨message, hm, hne⟩ | ⟨p, hp, hne⟩)
  · rcases hrequest _ hcreate with h | h
    · exact h rfl
    · exact hne h
  · exact hne (hhash message hm)
  · exact hne (hpolled p hp).symm

theorem applicationStands_of_check (x : Process) (parts : Nat → EventPart)
    (a : Choice Handler Oracle Disturbance) (h : checkApplications x parts a = true) :
    ApplicationStands svc x parts a := by
  rintro i o A q c rfl hpart hq
  cases q with
  | step b k =>
    cases hq
    simp only [checkApplications, hpart] at h
    cases c with
    | hgetall m => exact fun _ _ _ => Application.not_offLimits h
    | zscore q m => exact fun _ => Application.not_offLimits h
    | moveMessageBetweenQueues args => exact fun _ => Application.not_offLimits h
    | _ => trivial
  | pure b => cases hq
  | fail e => cases hq

/-- The event ends its own message, and leaves the other one alone. -/
theorem own_event_isolated : ∃ x parts y,
    EventRun vendorService ⟨true, true, true⟩ (ApplicationStands vendorService) x parts ∧
    (engine vendorService ⟨true, true, true⟩).next (.turn 5 {}) x = some y ∧
    x.world.store.redis.messages sampleId ≠ none ∧ y.world.store.redis.messages sampleId = none ∧
    x.world.store.redis.messages otherId ≠ none ∧
    x.world.store.LeftAlone y.world.store otherId := by
  have hrun : ((engine vendorService ⟨true, true, true⟩).followRecorded checkApplications
      (noteApplications vendorService ⟨true, true, true⟩) deliveredBeside Process.initial
      fun _ => none).any (fun s =>
        checkApplications s.1 s.2 (.turn 5 {}) &&
        ((s.2 5).any fun e => e.1.plugin.id = "calin-chirpstack" && e.2.pending.isSome) &&
        (s.1.world.store.enqueued.any fun e => e.1 = otherId && e.2.pluginId = "calin-api-v2") &&
        (s.1.world.store.redis.messages sampleId).isSome &&
        (s.1.world.store.redis.messages otherId).isSome &&
        ((engine vendorService ⟨true, true, true⟩).next (.turn 5 {}) s.1).any fun y =>
          (y.world.store.redis.messages sampleId).isNone) = true := by
    decide +kernel
  obtain ⟨⟨x, parts⟩, hs, hp⟩ := (Option.any_eq_true _ _).mp hrun
  simp only [Bool.and_eq_true, Option.any_eq_true, List.any_eq_true, decide_eq_true_eq] at hp
  obtain ⟨⟨⟨⟨⟨hlast, ⟨A, q⟩, hpart, hplugin, hq⟩, ⟨z, create⟩, hcreate, hz, hother⟩, hm⟩, ho⟩, y, hy,
    hn⟩ := hp
  obtain ⟨c, hc⟩ := Option.isSome_iff_exists.mp hq
  subst hz
  have hx : EventRun vendorService ⟨true, true, true⟩ (ApplicationStands vendorService) x parts :=
    .of_follow applicationStands_of_check .init hs
  have hoff : A.OffLimits x.world otherId := by
    refine .inl ⟨create, hcreate, ?_⟩
    rw [hother, hplugin]
    decide
  refine ⟨x, parts, y, hx, hy, Option.isSome_iff_ne_none.mp hm, Option.isNone_iff_eq_none.mp hn,
    Option.isSome_iff_ne_none.mp ho, ?_⟩
  exact ((reached_isolated _ _).1 x parts _ y hx (applicationStands_of_check _ _ _ hlast) hy 5 {} A q
    c rfl hpart hc).2 otherId hoff

/-- The answer to the poll of the one command ends the other. -/
def endsOther (s : Serial) : Bool :=
  let plugin := calinApiV1 DEFAULT_PLUGIN_TUNING
  (s.world.loaded otherId).any (fun message => message.pluginId ≠ some plugin.id) &&
    ((processEvent vendorService (pollEvent "1001") plugin).play
      (scripted fun _ _ _ => true) granted s.world).any fun e =>
        e.2.store.redis.messages otherId = none ∧ e.2.store.outcomes otherId ≠ []

/-- The same answer resolves the command of the other vendor, when both vendors
gave out the same task number. -/
theorem same_task_number_not_isolated : ∃ s r w',
    Serially vendorService freshPerPlugin anyPoll s ∧
    (processEvent vendorService (pollEvent "1001") (calinApiV1 {})).Runs (calmExec anyPoll)
      s.world r w' ∧
    Foreign s.world (calinApiV1 {}) otherId ∧ w'.store.redis.messages otherId = none ∧
    w'.store.outcomes otherId ≠ [] := by
  obtain ⟨s, hs, hp⟩ := exists_serially vendorService freshPerPluginB (fun _ _ _ => true)
    (pullSent ++ otherSent) endsOther freshPerPlugin_of_check (fun _ _ _ _ => trivial)
    (by decide +kernel)
  simp only [endsOther, Bool.and_eq_true] at hp
  obtain ⟨hm, hplay⟩ := hp
  obtain ⟨message, hm, hc⟩ := (Option.any_eq_true _ _).mp hm
  obtain ⟨r, w', hr, hw⟩ := runs_of_script hplay
  obtain ⟨hnone, htold⟩ := of_decide_eq_true hw
  exact ⟨s, r, w', hs, hr, ⟨message, hm, of_decide_eq_true hc⟩, hnone, htold⟩

end DeviceMessaging
