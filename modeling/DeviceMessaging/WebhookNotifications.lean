import DeviceMessaging.WebhookOutcomes

namespace DeviceMessaging.Webhook

open Effect BoundedRetry

/-- The POSTs of an event that were issued. -/
def posts (eventId : String) (log : List Entry) : Nat :=
  log.countP fun
    | .posted req => req.body.eventId = eventId
    | _ => false

/-- The outcomes of the POSTs of an event, oldest first. -/
def outcomes (eventId : String) (log : List Entry) : List Outcome :=
  log.filterMap fun
    | .answered req o => if req.body.eventId = eventId then some o else none
    | _ => none

/-- The event is in neither key of the notifications to deliver. -/
def Gone (w : World) (e : WebhookEvent) : Prop :=
  e.eventId ∉ w.keys.pending ∧ w.keys.payload e.eventId = none

structure Pending (msg : Messenger) (w : World) (e : WebhookEvent) : Prop where
  listed : e.eventId ∈ w.keys.pending
  stored : ∃ r, w.keys.payload e.eventId = some r ∧ r.event = e ∧
    r.attemptCount < msg.config.maxAttempts

structure Completed (msg : Messenger) (w : World) (e : WebhookEvent) : Prop where
  acknowledged : Acknowledged msg e w.log
  gone : Gone w e
  kept : ¬ DeadLettered e w.log

structure Dead (w : World) (e : WebhookEvent) : Prop where
  letter : ∃ r, r.event = e ∧ .deadLettered r ∈ w.log ∧
    (w.keys.deadLetter e.eventId = some r ∨ .expired e.eventId ∈ w.log)
  gone : Gone w e

variable {msg : Messenger} {weather : Weather} {w : World} {e : WebhookEvent} {x : Process}
  {log : List Entry} {id : String}

theorem tries_moves (id : String) (log : List Entry) : tries (moves id log) = posts id log := by
  induction log with
  | nil => rfl
  | cons entry log ih =>
    unfold tries moves posts at ih ⊢
    rw [List.countP_cons, ← ih, List.filterMap_cons]
    cases entry with
    | posted req => by_cases h : req.body.eventId = id <;> simp [Entry.move, h]
    | answered req o => by_cases h : req.body.eventId = id <;> simp [Entry.move, h]
    | scheduled r => by_cases h : r.event.eventId = id <;> simp [Entry.move, h]
    | deadLettered r => by_cases h : r.event.eventId = id <;> simp [Entry.move, h]
    | completed id' => by_cases h : id' = id <;> simp [Entry.move, h]
    | accepted e => rfl
    | expired id' => rfl

theorem verdicts_moves (id : String) (log : List Entry) :
    verdicts (moves id log) = (outcomes id log).map verdict := by
  unfold verdicts moves outcomes
  rw [List.filterMap_filterMap, List.map_filterMap]
  refine congrArg (fun f => log.filterMap f) (funext fun entry => ?_)
  cases entry with
  | posted req =>
    by_cases h : req.body.eventId = id <;> simp [Entry.move, BoundedRetry.Move.verdict, h]
  | answered req o => by_cases h : req.body.eventId = id <;> simp [Entry.move, BoundedRetry.Move.verdict, h]
  | scheduled r =>
    by_cases h : r.event.eventId = id <;> simp [Entry.move, BoundedRetry.Move.verdict, h]
  | deadLettered r =>
    by_cases h : r.event.eventId = id <;> simp [Entry.move, BoundedRetry.Move.verdict, h]
  | completed id' =>
    by_cases h : id' = id <;> simp [Entry.move, BoundedRetry.Move.verdict, h]
  | accepted e => rfl
  | expired id' => rfl

theorem Acknowledged.outcome (h : Acknowledged msg e log) :
    ∃ o ∈ outcomes e.eventId log, verdict o = .success := by
  obtain ⟨status, hs, hok⟩ := h
  exact ⟨.ok status, List.mem_filterMap.mpr ⟨_, hs, if_pos rfl⟩, if_pos hok⟩

theorem DeadLettered.moved (h : DeadLettered e log) : .dropped ∈ moves e.eventId log := by
  obtain ⟨r, hr, rfl⟩ := h
  exact List.mem_filterMap.mpr ⟨_, hr, if_pos rfl⟩

/-- An accepted event is pending, completed or dead-lettered, and only one of these. -/
theorem Kept.condition (hk : Kept msg w) (he : e ∈ acceptedIn w.log) :
    (Pending msg w e ∨ Completed msg w e ∨ Dead w e) ∧ ¬ (Pending msg w e ∧ Completed msg w e) ∧
      ¬ (Pending msg w e ∧ Dead w e) ∧ ¬ (Completed msg w e ∧ Dead w e) := by
  refine ⟨?_, fun h => h.2.gone.1 h.1.listed, fun h => h.2.gone.1 h.1.listed, fun h => ?_⟩
  · cases hp : w.keys.payload e.eventId with
    | some r =>
      obtain ⟨hid, hacc, hlt, hpend⟩ := hk.stored _ _ hp
      exact .inl ⟨hpend, r, hp, hk.unique _ hacc _ he hid, hlt⟩
    | none =>
      have hgone : Gone w e := ⟨fun h => hk.listed _ h hp, hp⟩
      by_cases hdead : DeadLettered e w.log
      · obtain ⟨r, hr, rfl⟩ := hdead
        exact .inr (.inr ⟨⟨r, rfl, hr, (hk.dead r hr).2.2⟩, hgone⟩)
      · exact .inr (.inl ⟨(hk.gone e he hp).resolve_right hdead, hgone, hdead⟩)
  · obtain ⟨r, hr, hlog, -⟩ := h.2.letter
    exact h.1.kept ⟨r, hlog, hr⟩

/-- In every run each accepted event is pending, completed or dead-lettered, and all
its POSTs are the same. In a calm run its POSTs do not overlap, are no more than
`maxAttempts`, and stop at the first outcome that is final; it is dead-lettered only
for a final refusal or `maxAttempts` failures, and never after a 2xx. -/
theorem reached_notifications (hx : Reached msg weather x) :
    (∀ e ∈ acceptedIn x.world.log,
      ((Pending msg x.world e ∨ Completed msg x.world e ∨ Dead x.world e) ∧
        ¬ (Pending msg x.world e ∧ Completed msg x.world e) ∧
        ¬ (Pending msg x.world e ∧ Dead x.world e) ∧
        ¬ (Completed msg x.world e ∧ Dead x.world e)) ∧
      ∀ req, .posted req ∈ x.world.log → req.body.eventId = e.eventId → req = request msg e) ∧
    (Calm weather → ∀ e ∈ acceptedIn x.world.log,
      posts e.eventId x.world.log ≤ msg.config.maxAttempts ∧
      (outcomes e.eventId x.world.log).length ≤ posts e.eventId x.world.log ∧
      posts e.eventId x.world.log ≤ (outcomes e.eventId x.world.log).length + 1 ∧
      (∀ o ∈ (outcomes e.eventId x.world.log).dropLast, verdict o = .again) ∧
      ((∃ o ∈ outcomes e.eventId x.world.log, verdict o ≠ .again) →
        posts e.eventId x.world.log = (outcomes e.eventId x.world.log).length) ∧
      (DeadLettered e x.world.log →
        ((∃ o ∈ outcomes e.eventId x.world.log, verdict o = .giveUp) ∨
          (outcomes e.eventId x.world.log).length = msg.config.maxAttempts ∧
            ∀ o ∈ outcomes e.eventId x.world.log, verdict o = .again) ∧
        ¬ Acknowledged msg e x.world.log)) := by
  have ho := reached_ordered hx
  refine ⟨fun e he => ⟨ho.kept.condition he, fun req hreq hid => ?_⟩, fun hcalm e he => ?_⟩
  · obtain ⟨e', he', rfl⟩ := ho.kept.posts req hreq
    rw [ho.kept.unique e he e' he' hid.symm]
  · obtain ⟨j, hj⟩ := ho.legal hcalm e he
    have htally := run_tally hj
    have htries := tries_moves e.eventId x.world.log
    have hverdicts := verdicts_moves e.eventId x.world.log
    have hlen : (verdicts (moves e.eventId x.world.log)).length =
        (outcomes e.eventId x.world.log).length := by rw [hverdicts, List.length_map]
    obtain ⟨hle, hge⟩ := htally.tries_judged
    obtain ⟨hlast, hstop⟩ := htally.final_last
    have hmax := htally.tries_le msg.config.maxAttempts_pos
    rw [htries] at hle hge hmax hstop
    rw [hlen] at hle hge hstop
    rw [hverdicts] at hlast hstop
    refine ⟨hmax, hle, hge, fun o hmem => ?_, fun hex => ?_, fun hdead => ?_⟩
    · refine hlast _ ?_
      rw [← List.map_dropLast]
      exact List.mem_map_of_mem hmem
    · obtain ⟨o, hmem, hne⟩ := hex
      exact hstop ⟨_, List.mem_map_of_mem hmem, hne⟩
    · obtain rfl := (run_dropped hj).mp hdead.moved
      obtain ⟨hwhy, hnone⟩ := htally.dropped_why
      rw [hverdicts] at hwhy hnone
      constructor
      · rcases hwhy with hgive | hall
        · exact .inl (List.mem_map.mp hgive)
        · refine .inr ⟨?_, fun o hmem => ?_⟩
          · rw [← List.length_map verdict, hall, List.length_replicate]
          · exact List.eq_of_mem_replicate (hall ▸ List.mem_map_of_mem hmem)
      · intro hack
        obtain ⟨o, hmem, hv⟩ := hack.outcome
        exact hnone (List.mem_map.mpr ⟨o, hmem, hv⟩)

/-- One notification: it is accepted, a drain starts and POSTs it. -/
def hooked : Messenger where
  config := { url := "https://consumer.example/hooks" }
  signWebhookBody := fun _ _ => ""

def notified : PartialMessage :=
  { pluginId := some "calin-chirpstack", deliveryStatus := some .SENT_TO_NS,
    device := some sampleDevice }

def notification : WebhookEvent where
  eventId := "01EVENT"
  occurredAt := 0
  pluginId := "calin-chirpstack"
  message := {
    deliveryStatus := .SENT_TO_NS
    device := sampleDevice
    id := none
    correlationId := none
    commandType := none
    phase := none
    response := none
    failureHistory := none
    unsolicited := none }

def act (i n : Nat) (o : Oracle) : List (Choice Handler Oracle String) :=
  .replicate n (.turn i o)

def postedOnce (outcome : Outcome) : List (Choice Handler Oracle String) :=
  List.flatten [
    [.start (.storeAndEmit notified)], act 0 5 { id := "01EVENT" },
    [.start (.drain 0)], act 1 7 { outcome := outcome }]

/-- After the lease, a process that has just started POSTs what is still pending. -/
def postedAgain (outcome : Outcome) : List (Choice Handler Oracle String) :=
  List.flatten [
    [.start .timer], act 0 1 {},
    [.start (.drain 0)], act 1 8 { now := 70000, outcome := outcome }]

def checkDead (x : Process) : Bool :=
  decide (acceptedIn x.world.log = [notification]) &&
    x.world.log.any fun
      | .deadLettered r => r.event = notification
      | _ => false

theorem checkDead_sound (h : checkDead x = true) :
    notification ∈ acceptedIn x.world.log ∧ DeadLettered notification x.world.log := by
  obtain ⟨hacc, hdead⟩ := Bool.and_eq_true_iff.mp h
  obtain ⟨entry, hentry, he⟩ := List.any_eq_true.mp hdead
  refine ⟨by simp [of_decide_eq_true hacc], ?_⟩
  cases entry with
  | deadLettered r => exact ⟨r, hentry, of_decide_eq_true he⟩
  | _ => cases he

/-- A notification whose POST is refused is dead-lettered and not acknowledged. -/
theorem refused_dead_lettered : ∃ x : Process,
    DeadLettered notification x.world.log ∧ ¬ Acknowledged hooked notification x.world.log := by
  obtain ⟨x, hx, hr⟩ := exists_reached hooked {} (postedOnce (.ok 400) ++ act 1 1 {}) checkDead
    (by decide +kernel)
  obtain ⟨hmem, hdead⟩ := checkDead_sound hr
  exact ⟨x, hdead, (((reached_notifications hx).2 ⟨rfl, rfl⟩ notification hmem).2.2.2.2.2 hdead).2⟩

def answeredOk (entry : Entry) : Bool :=
  match entry with
  | .answered req (.ok status) => req = request hooked notification && status == 200
  | _ => false

/-- A crash keeps a 2xx from being recorded, and the next POST is refused: the
notification is acknowledged and dead-lettered. -/
theorem acknowledged_and_dead :
    ¬ ∀ x, Reached hooked { crashes := true } x → ∀ e ∈ acceptedIn x.world.log,
      ¬ ((Acknowledged hooked e x.world.log ∧ Gone x.world e) ∧ Dead x.world e) := by
  intro hall
  obtain ⟨x, hx, hr⟩ := exists_reached hooked { crashes := true }
    (List.flatten [postedOnce (.ok 200), [.crash], postedAgain (.ok 400)])
    (fun x => checkDead x && x.world.log.any answeredOk)
    (by decide +kernel)
  obtain ⟨hdead, hack⟩ := Bool.and_eq_true_iff.mp hr
  obtain ⟨hmem, hdead⟩ := checkDead_sound hdead
  have hletter : Dead x.world notification := by
    rcases ((reached_notifications hx).1 notification hmem).1.1 with h | h | h
    · obtain ⟨r, hp, -⟩ := h.stored
      obtain ⟨r', hr', he⟩ := hdead
      have hnone := ((reached_ordered hx).kept.dead r' hr').2.1
      rw [he, hp] at hnone
      cases hnone
    · exact absurd hdead h.kept
    · exact h
  refine hall x hx notification hmem ⟨⟨?_, hletter.gone⟩, hletter⟩
  obtain ⟨entry, hentry, he⟩ := List.any_eq_true.mp hack
  cases entry with
  | answered req o =>
    cases o with
    | ok status =>
      obtain ⟨hreq, hstatus⟩ := Bool.and_eq_true_iff.mp he
      obtain rfl := of_decide_eq_true hreq
      exact ⟨status, hentry, by rw [eq_of_beq hstatus]; rfl⟩
    | error m => cases he
  | _ => cases he

end DeviceMessaging.Webhook
