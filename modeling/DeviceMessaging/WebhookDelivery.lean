import DeviceMessaging.WebhookService

namespace DeviceMessaging.Webhook

open Effect BoundedRetry
open Effect.Prog (wp_bind wp_command wp_tryCatch wp_mono wp_pure wp_throw)

/-- What an outcome says about its event. -/
def verdict (o : Outcome) : Verdict :=
  match o with
  | .error _ => .again
  | .ok status =>
    if isOk status then .success else if isRetryableWebhookStatus status then .again else .giveUp

/-- Where a drain is with an event. -/
inductive Phase
  | idle
  | missing (eventId : String)
  | loaded (record : AttemptedRecord)
  | leased (record : AttemptedRecord)
  | posting (record : AttemptedRecord)
  | answered (record : AttemptedRecord) (outcome : Outcome)
  | aborted
  | ended

/-- What a drain knows: the batch it listed, and its event. -/
structure Grip where
  due : List String
  phase : Phase

variable (msg : Messenger)

/-- The commands of a drain, by where it is. -/
def Allowed (g : Grip) (c : Cmd) : Prop :=
  match g.phase, c with
  | .ended, _ => False
  | _, .dateNow => True
  | .idle, .store (.listDueEventIds _) => True
  | .idle, .store (.getRecord eventId) => eventId ∈ g.due
  | .missing eventId, .store (.complete id) => id = eventId
  | .loaded r, .store (.reschedule r' _) => r' = r
  | .leased r, .fetch req => req = request msg r.event
  | .posting r, .response req => req = request msg r.event
  | .answered r o, .store (.reschedule r' _) => verdict o = .again ∧ r'.event = r.event ∧
      r'.attemptCount = r.attemptCount + 1 ∧ r.attemptCount + 1 < msg.config.maxAttempts
  | .answered r o, .store (.complete id) => verdict o = .success ∧ id = r.event.eventId
  | .answered r o, .store (.deadLetter r' _) => r'.event = r.event ∧
      (verdict o = .giveUp ∨ verdict o = .again ∧ msg.config.maxAttempts ≤ r.attemptCount + 1)
  | .idle, .settle => True
  | .aborted, .settle => True
  | _, _ => False

def Phase.afterStore (p : Phase) (c : WebhookStoreCmd) (v : c.Value) : Phase :=
  match c, v, p with
  | .getRecord eventId, none, _ => .missing eventId
  | .getRecord _, some r, _ => .loaded r
  | .reschedule r _, _, .loaded _ => .leased r
  | _, _, _ => .idle

def Grip.after (g : Grip) (c : Cmd) (r : Reply c) : Grip :=
  match c, r, g.phase with
  | .store _, .error _, _ => { g with phase := .aborted }
  | .store (.listDueEventIds _), .ok ids, _ => ⟨ids, .idle⟩
  | .store c, .ok v, p => { g with phase := p.afterStore c v }
  | .fetch _, _, .leased r => { g with phase := .posting r }
  | .response _, o, .posting r => { g with phase := .answered r o }
  | .settle, _, _ => { g with phase := .ended }
  | _, _, _ => g

/-- A record is stored under the id of its event. -/
def Reads (c : Cmd) (r : Reply c) : Prop :=
  match c, r with
  | .store (.getRecord eventId), .ok (some record) => record.event.eventId = eventId
  | _, _ => True

def delivers : Monitor Cmd Reply Grip where
  allows := Allowed msg
  next g c r g' := Reads c r ∧ g' = g.after c r

/-- What hands over events and starts drains. -/
def emits : Monitor Cmd Reply Grip where
  allows _ c :=
    match c with
    | .store (.enqueue record _) => record.attemptCount = 0
    | .store _ => False
    | .fetch _ => False
    | .response _ => False
    | .settle => False
    | _ => True
  next g _ _ g' := g' = g

variable {msg} {g : Grip} {r : AttemptedRecord} {o : Outcome} {E : String → Grip → Prop}

theorem wp_store {c : WebhookStoreCmd} {Q : c.Value → Grip → Prop}
    (hc : Allowed msg g (.store c))
    (hok : ∀ v, Reads (.store c) (.ok v) → Q v (g.after (.store c) (.ok v)))
    (herr : ∀ e, E e { g with phase := .aborted }) : (store c).wp (delivers msg) Q E g := by
  unfold store
  rw [wp_bind, wp_command]
  refine ⟨hc, fun r g' hr => ?_⟩
  obtain ⟨hreads, rfl⟩ := hr
  cases r with
  | ok v => exact hok v hreads
  | error e => exact herr e

theorem wp_dateNow {Q : Nat → Grip → Prop} (hg : Allowed msg g .dateNow) (hq : ∀ now, Q now g) :
    dateNow.wp (delivers msg) Q E g := by
  unfold dateNow
  rw [wp_command]
  refine ⟨hg, fun now g' hr => ?_⟩
  obtain ⟨-, rfl⟩ := hr
  exact hq now

/-- Between two events. -/
def Between (due : List String) (g : Grip) : Prop :=
  g = ⟨due, .idle⟩

def Aborted (_ : String) (g : Grip) : Prop :=
  g.phase = .aborted

theorem onFailure_delivers (due : List String) (message : String) (ho : verdict o = .again) :
    (onFailure msg r message).wp (delivers msg) (fun _ => Between due) Aborted
      ⟨due, .answered r o⟩ := by
  unfold onFailure
  dsimp only
  split
  next hmax => exact wp_store ⟨rfl, .inr ⟨ho, hmax⟩⟩ (fun _ _ => rfl) fun _ => rfl
  next hmax =>
    rw [wp_bind]
    refine wp_dateNow trivial fun now => ?_
    exact wp_store ⟨ho, rfl, rfl, Nat.lt_of_not_le hmax⟩ (fun _ _ => rfl) fun _ => rfl

theorem onResponse_delivers (due : List String) :
    (onResponse msg r r.event.eventId o).wp (delivers msg) (fun _ => Between due) Aborted
      ⟨due, .answered r o⟩ := by
  unfold onResponse
  cases o with
  | error message => exact onFailure_delivers due message rfl
  | ok status =>
    dsimp only
    split
    next hok => exact wp_store ⟨by simp [verdict, hok], rfl⟩ (fun _ _ => rfl) fun _ => rfl
    next hok =>
      split
      next hretry => exact onFailure_delivers due _ (by simp [verdict, hok, hretry])
      next hretry =>
        exact wp_store ⟨rfl, .inl (by simp [verdict, hok, hretry])⟩ (fun _ _ => rfl) fun _ => rfl

theorem deliverOne_delivers {due : List String} {eventId : String} (hid : eventId ∈ due) :
    (deliverOne msg eventId).wp (delivers msg) (fun _ => Between due) Aborted ⟨due, .idle⟩ := by
  unfold deliverOne
  rw [wp_bind]
  refine wp_store hid (fun v hreads => ?_) fun _ => rfl
  cases v with
  | none => exact wp_store rfl (fun _ _ => rfl) fun _ => rfl
  | some record =>
    obtain rfl : record.event.eventId = eventId := hreads
    dsimp only
    rw [wp_bind]
    refine wp_dateNow trivial fun now => ?_
    rw [wp_bind]
    refine wp_store rfl (fun _ _ => ?_) fun _ => rfl
    rw [wp_bind, wp_command]
    refine ⟨rfl, fun _ g' hr => ?_⟩
    obtain ⟨-, rfl⟩ := hr
    rw [wp_bind, wp_command]
    refine ⟨rfl, fun outcome g' hr => ?_⟩
    obtain ⟨-, rfl⟩ := hr
    exact onResponse_delivers due

theorem forM_delivers {due ids : List String} (hids : ids ⊆ due) :
    (ids.forM (deliverOne msg)).wp (delivers msg) (fun _ => Between due) Aborted ⟨due, .idle⟩ := by
  induction ids with
  | nil => rfl
  | cons id ids ih =>
    change (deliverOne msg id >>= fun _ => ids.forM (deliverOne msg)).wp _ _ _ _
    rw [wp_bind]
    refine wp_mono (deliverOne_delivers (hids List.mem_cons_self)) (fun _ g hg => ?_) fun _ _ h => h
    cases hg
    exact ih fun x hx => hids (List.mem_cons_of_mem id hx)

theorem drainLink_delivers :
    (drainLink msg).wp (delivers msg) (fun _ g => g.phase = .ended) (fun _ g => g.phase = .ended)
      ⟨[], .idle⟩ := by
  unfold drainLink drainOnce
  rw [wp_bind, wp_tryCatch, wp_bind]
  refine wp_dateNow trivial fun now => ?_
  rw [wp_bind]
  refine wp_store trivial (fun ids _ => ?_) fun _ => ?_
  · refine wp_mono (forM_delivers (List.Subset.refl ids)) (fun _ g hg => ?_) fun _ g hg => ?_
    · cases hg
      refine ⟨trivial, fun _ g' hr => ?_⟩
      obtain ⟨-, rfl⟩ := hr
      rfl
    · obtain ⟨due, phase⟩ := g
      obtain rfl : phase = .aborted := hg
      refine ⟨trivial, fun _ g' hr => ?_⟩
      obtain ⟨-, rfl⟩ := hr
      rfl
  · refine ⟨trivial, fun _ g' hr => ?_⟩
    obtain ⟨-, rfl⟩ := hr
    rfl

theorem storeAndEmit_emits (message : PartialMessage) :
    (storeAndEmit message).wp emits (fun _ _ => True) (fun _ _ => True) g := by
  unfold storeAndEmit dateNow drainDue
  simp only [wp_bind, wp_command]
  refine ⟨trivial, fun occurredAt g₁ _ => ⟨trivial, fun eventId g₂ _ => ?_⟩⟩
  cases buildWebhookEvent message occurredAt eventId with
  | error _ => trivial
  | ok event =>
    unfold store
    simp only [wp_bind, wp_command]
    refine ⟨trivial, fun now g₃ _ => ⟨rfl, fun r g₄ _ => ?_⟩⟩
    cases r with
    | error _ => trivial
    | ok _ => exact ⟨trivial, fun _ _ _ => trivial⟩

end DeviceMessaging.Webhook
