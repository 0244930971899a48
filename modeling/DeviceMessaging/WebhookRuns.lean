import DeviceMessaging.WebhookHistory

namespace DeviceMessaging.Webhook

open Effect BoundedRetry

/-- What an entry is for the event of an id. -/
def Entry.move (id : String) (entry : Entry) : Option BoundedRetry.Move :=
  match entry with
  | .scheduled r => if r.event.eventId = id then some (.scheduled r.attemptCount) else none
  | .posted req => if req.body.eventId = id then some .tried else none
  | .answered req o => if req.body.eventId = id then some (.judged (verdict o)) else none
  | .completed id' => if id' = id then some .finished else none
  | .deadLettered r => if r.event.eventId = id then some .dropped else none
  | .accepted _ => none
  | .expired _ => none

def moves (id : String) (log : List Entry) : List BoundedRetry.Move :=
  log.filterMap (Entry.move id)

/-- Where the event of an id is, by its history. -/
def jobOf (max : Nat) (id : String) (log : List Entry) : Option Job :=
  run max (moves id log)

variable (msg : Messenger)

/-- An event no drain is at: it waits with the count that is stored, or it is over. -/
def AtRest (w : World) (e : WebhookEvent) : Prop :=
  match w.keys.payload e.eventId with
  | some r => jobOf msg.config.maxAttempts e.eventId w.log = some (.waiting r.attemptCount)
  | none => jobOf msg.config.maxAttempts e.eventId w.log = some .finished ∨
      jobOf msg.config.maxAttempts e.eventId w.log = some .dropped

def Phase.inHand (p : Phase) : Option AttemptedRecord :=
  match p with
  | loaded r => some r
  | leased r => some r
  | posting r => some r
  | answered r _ => some r
  | _ => none

def Phase.job (p : Phase) : Option Job :=
  match p with
  | loaded r => some (.waiting r.attemptCount)
  | leased r => some (.waiting r.attemptCount)
  | posting r => some (.trying r.attemptCount)
  | answered r o => some (.answered r.attemptCount (verdict o))
  | _ => none

/-- What a drain knows of the world. -/
structure Facts (g : Grip) (w : World) : Prop where
  due : ∀ id ∈ g.due, id ∈ (acceptedIn w.log).map (·.eventId)
  missing : ∀ id, g.phase = .missing id →
    w.keys.payload id = none ∧ id ∈ (acceptedIn w.log).map (·.eventId)
  held : ∀ r, g.phase.inHand = some r → w.keys.payload r.event.eventId = some r
  answered : ∀ r o, g.phase = .answered r o → .answered (request msg r.event) o ∈ w.log

/-- A drain that was never cut short is where the history of its event says, and all
other events are at rest. -/
structure Orderly (g : Grip) (w : World) : Prop where
  going : g.phase ≠ .aborted
  others : ∀ e ∈ acceptedIn w.log, (∀ r, g.phase.inHand = some r → e.eventId ≠ r.event.eventId) →
    AtRest msg w e
  held : ∀ r, g.phase.inHand = some r →
    jobOf msg.config.maxAttempts r.event.eventId w.log = g.phase.job

/-- What the rest of the process does to the world of a drain. -/
structure Onward (w w' : World) : Prop where
  entries : ∀ x ∈ w.log, x ∈ w'.log
  accepted : ∀ e ∈ acceptedIn w.log, e ∈ acceptedIn w'.log
  payload : ∀ e ∈ acceptedIn w.log, w'.keys.payload e.eventId = w.keys.payload e.eventId
  job : ∀ e ∈ acceptedIn w.log, moves e.eventId w'.log = moves e.eventId w.log
  fresh : ∀ e ∈ acceptedIn w'.log, e ∈ acceptedIn w.log ∨ AtRest msg w' e

variable {msg} {w w' : World} {c : WebhookStoreCmd} {e : WebhookEvent} {r : AttemptedRecord}
  {log : List Entry} {id : String} {g : Grip} {entry : Entry}

theorem moves_other (h : entry.move id = none) : moves id (log ++ [entry]) = moves id log := by
  simp [moves, h]

theorem jobOf_snoc {max : Nat} {m : BoundedRetry.Move} {j j' : Job} (hm : entry.move id = some m)
    (hj : jobOf max id log = some j) (hstep : j.step max m = some j') :
    jobOf max id (log ++ [entry]) = some j' := by
  have hs : moves id (log ++ [entry]) = moves id log ++ [m] := by simp [moves, hm]
  unfold jobOf at hj ⊢
  rw [hs, run_snoc, hj]
  exact hstep

theorem AtRest.frame (hr : AtRest msg w e)
    (hp : w'.keys.payload e.eventId = w.keys.payload e.eventId)
    (hm : moves e.eventId w'.log = moves e.eventId w.log) : AtRest msg w' e := by
  unfold AtRest jobOf at hr ⊢
  rwa [hp, hm]

theorem Facts.onward (hf : Facts msg g w) (hk : Kept msg w) (ho : Onward msg w w') :
    Facts msg g w' := by
  have hacc : ∀ id, id ∈ (acceptedIn w.log).map (·.eventId) →
      id ∈ (acceptedIn w'.log).map (·.eventId) := by
    intro id hid
    obtain ⟨e, he, rfl⟩ := List.mem_map.mp hid
    exact List.mem_map_of_mem (ho.accepted e he)
  refine ⟨fun id hid => hacc id (hf.due id hid), fun id hid => ?_, fun r hr => ?_, fun r o hr =>
    ho.entries _ (hf.answered r o hr)⟩
  · obtain ⟨hp, hid⟩ := hf.missing id hid
    refine ⟨?_, hacc id hid⟩
    obtain ⟨e, he, rfl⟩ := List.mem_map.mp hid
    rw [ho.payload e he, hp]
  · have hr' := hf.held r hr
    rw [ho.payload _ (hk.stored _ _ hr').2.1, hr']

theorem Orderly.onward (hg : Orderly msg g w) (hf : Facts msg g w) (hk : Kept msg w)
    (ho : Onward msg w w') : Orderly msg g w' where
  going := hg.going
  others e he hne := by
    rcases ho.fresh e he with he | he
    · exact (hg.others e he hne).frame (ho.payload e he) (ho.job e he)
    · exact he
  held r hr := by
    have hacc := (hk.stored _ _ (hf.held r hr)).2.1
    have hj := hg.held r hr
    unfold jobOf at hj ⊢
    rw [ho.job _ hacc, hj]

theorem onward_same (hkeys : w'.keys = w.keys) (hlog : w'.log = w.log) : Onward msg w w' := by
  refine ⟨?_, ?_, fun e _ => by rw [hkeys], fun _ _ => by rw [hlog], fun _ h => ?_⟩
  · exact fun _ h => hlog ▸ h
  · exact fun _ h => hlog ▸ h
  · exact .inl (hlog ▸ h)

theorem onward_expire (id : String) (w : World) : Onward msg w (expire id w) := by
  have hacc : acceptedIn (w.log ++ [.expired id]) = acceptedIn w.log := by simp [acceptedIn]
  refine ⟨?_, ?_, ?_, ?_, ?_⟩ <;> dsimp only [expire, World.note] <;> (try rw [hacc])
  · exact fun _ h => List.mem_append_left _ h
  · exact fun _ h => h
  · exact fun _ _ => rfl
  · exact fun _ _ => moves_other rfl
  · exact fun _ h => .inl h

/-- Only accepted events have a history. -/
def Told (w : World) : Prop :=
  ∀ x ∈ w.log, ∀ id, x.move id ≠ none → id ∈ (acceptedIn w.log).map (·.eventId)

theorem told_snoc (ht : Told w) {x : Entry} {k : WebhookKeys}
    (hx : ∀ id, x.move id ≠ none → id ∈ (acceptedIn w.log).map (·.eventId)) :
    Told { w with keys := k, log := w.log ++ [x] } := by
  intro y hy id hm
  have hid : id ∈ (acceptedIn w.log).map (·.eventId) := by
    rcases List.mem_append.mp hy with hy | hy
    · exact ht y hy id hm
    · exact hx id (List.mem_singleton.mp hy ▸ hm)
  rw [acceptedIn_append, List.map_append]
  exact List.mem_append_left _ hid

theorem Told.exec (ht : Told w) (hk : Kept msg w) (hl : Lawful msg w c) : Told (w.exec c) := by
  have hid : ∀ {r₀ : AttemptedRecord}, w.keys.payload r₀.event.eventId = some r₀ →
      r₀.event.eventId ∈ (acceptedIn w.log).map (·.eventId) :=
    fun h => List.mem_map_of_mem (hk.stored _ _ h).2.1
  have hof : ∀ {r r₀ : AttemptedRecord}, w.keys.payload r.event.eventId = some r₀ →
      r.event.eventId ∈ (acceptedIn w.log).map (·.eventId) := by
    intro r r₀ h
    have hs := hk.stored _ _ h
    rw [← hs.1]
    exact List.mem_map_of_mem hs.2.1
  cases c with
  | enqueue r now => exact told_snoc ht fun id hm => absurd rfl hm
  | reschedule r t =>
    obtain ⟨-, r₀, hr₀, -⟩ := hl
    refine told_snoc ht fun id hm => ?_
    by_cases he : r.event.eventId = id
    · exact he ▸ hof hr₀
    · simp [Entry.move, he] at hm
  | complete id' =>
    refine told_snoc ht fun id hm => ?_
    by_cases he : id' = id
    · exact he ▸ hl.1
    · simp [Entry.move, he] at hm
  | deadLetter r ttl =>
    obtain ⟨r₀, hr₀, -⟩ := hl
    refine told_snoc ht fun id hm => ?_
    by_cases he : r.event.eventId = id
    · exact he ▸ hof hr₀
    · simp [Entry.move, he] at hm
  | listDueEventIds now => simpa [World.exec, WebhookStoreCmd.run, trace] using ht
  | getRecord id => simpa [World.exec, WebhookStoreCmd.run, trace] using ht

theorem Told.note_post (ht : Told w) (he : e ∈ acceptedIn w.log)
    (hentry : entry = .posted (request msg e) ∨ ∃ o, entry = .answered (request msg e) o) :
    Told (w.note entry) := by
  refine told_snoc (k := w.keys) ht fun id hm => ?_
  have hid : e.eventId = id := by
    by_contra hne
    rcases hentry with rfl | ⟨o, rfl⟩ <;> simp [Entry.move, request, hne] at hm
  exact hid ▸ List.mem_map_of_mem he

/-- A new event is at rest, and the others are left as they are. -/
theorem onward_enqueue (ht : Told w) {now : Nat} (hf : Fresh (.enqueue r now) w.log)
    (hr : r.attemptCount = 0) : Onward msg w (w.exec (.enqueue r now)) := by
  have hacc : acceptedIn (w.log ++ [.accepted r.event]) = acceptedIn w.log ++ [r.event] := by
    simp [acceptedIn]
  refine ⟨?_, ?_, ?_, ?_, ?_⟩ <;>
    dsimp only [World.exec, WebhookStoreCmd.run, WebhookKeys.schedule, trace] <;> (try rw [hacc])
  · exact fun _ h => List.mem_append_left _ h
  · exact fun _ h => List.mem_append_left _ h
  · intro e he
    have hne : e.eventId ≠ r.event.eventId := fun heq => hf (List.mem_map.mpr ⟨e, he, heq⟩)
    exact Function.update_of_ne hne _ _
  · exact fun _ _ => moves_other rfl
  · intro e he
    rcases List.mem_append.mp he with he | he
    · exact .inl he
    · cases List.mem_singleton.mp he
      right
      have hnone : moves r.event.eventId w.log = [] := by
        refine List.filterMap_eq_nil_iff.mpr fun x hx => ?_
        by_contra hm
        exact hf (ht x hx _ hm)
      unfold AtRest jobOf
      dsimp only
      rw [Function.update_self, moves_other rfl, hnone]
      dsimp only
      rw [hr]
      rfl

end DeviceMessaging.Webhook
