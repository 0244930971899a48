import DeviceMessaging.WebhookDelivery

namespace DeviceMessaging.Webhook

open Effect BoundedRetry

variable (msg : Messenger)

/-- Some POST of the event got a 2xx. -/
def Acknowledged (event : WebhookEvent) (log : List Entry) : Prop :=
  ∃ status, .answered (request msg event) (.ok status) ∈ log ∧ isOk status = true

def DeadLettered (event : WebhookEvent) (log : List Entry) : Prop :=
  ∃ record, .deadLettered record ∈ log ∧ record.event = event

/-- What the keys say of the events, and the history of the keys. -/
structure Kept (w : World) : Prop where
  stored : ∀ id r, w.keys.payload id = some r → r.event.eventId = id ∧
    r.event ∈ acceptedIn w.log ∧ r.attemptCount < msg.config.maxAttempts ∧ id ∈ w.keys.pending
  listed : ∀ id, id ∈ w.keys.pending → w.keys.payload id ≠ none
  unique : ∀ e ∈ acceptedIn w.log, ∀ e' ∈ acceptedIn w.log, e.eventId = e'.eventId → e = e'
  gone : ∀ e ∈ acceptedIn w.log, w.keys.payload e.eventId = none →
    Acknowledged msg e w.log ∨ DeadLettered e w.log
  dead : ∀ r, .deadLettered r ∈ w.log → r.event ∈ acceptedIn w.log ∧
    w.keys.payload r.event.eventId = none ∧
    (w.keys.deadLetter r.event.eventId = some r ∨ .expired r.event.eventId ∈ w.log)
  posts : ∀ req, .posted req ∈ w.log → ∃ e ∈ acceptedIn w.log, req = request msg e
  answers : ∀ req o, .answered req o ∈ w.log → ∃ e ∈ acceptedIn w.log, req = request msg e

/-- The store commands the code issues, by what they find. -/
def Lawful (w : World) (c : WebhookStoreCmd) : Prop :=
  match c with
  | .enqueue r _ => r.attemptCount = 0
  | .reschedule r _ => r.attemptCount < msg.config.maxAttempts ∧
      ∃ r₀, w.keys.payload r.event.eventId = some r₀ ∧ r.event = r₀.event
  | .complete id => id ∈ (acceptedIn w.log).map (·.eventId) ∧ (w.keys.payload id = none ∨
      ∃ r, w.keys.payload id = some r ∧ Acknowledged msg r.event w.log)
  | .deadLetter r _ => ∃ r₀, w.keys.payload r.event.eventId = some r₀ ∧ r.event = r₀.event
  | _ => True

variable {msg} {w : World} {c : WebhookStoreCmd} {e : WebhookEvent} {r : AttemptedRecord}
  {log : List Entry} {id : String}

theorem acceptedIn_append (es : List Entry) :
    acceptedIn (log ++ es) = acceptedIn log ++ acceptedIn es :=
  List.filterMap_append

theorem Acknowledged.mono {es : List Entry} (h : Acknowledged msg e log) :
    Acknowledged msg e (log ++ es) := by
  obtain ⟨status, hs, hok⟩ := h
  exact ⟨status, List.mem_append_left _ hs, hok⟩

theorem DeadLettered.mono {es : List Entry} (h : DeadLettered e log) :
    DeadLettered e (log ++ es) := by
  obtain ⟨r, hr, he⟩ := h
  exact ⟨r, List.mem_append_left _ hr, he⟩

theorem kept_empty : Kept msg (.boot .empty []) where
  stored _ _ h := nomatch h
  listed _ h := absurd h SortedSet.not_mem_empty
  unique _ h := nomatch h
  gone _ h := nomatch h
  dead _ h := nomatch h
  posts _ h := nomatch h
  answers _ _ h := nomatch h

/-- The links of the drain chain do not matter. -/
theorem Kept.congr (hk : Kept msg w) {w' : World} (hkeys : w'.keys = w.keys)
    (hlog : w'.log = w.log) : Kept msg w' := by
  obtain ⟨keys, log, kicked, started, settled⟩ := w'
  obtain rfl : keys = w.keys := hkeys
  obtain rfl : log = w.log := hlog
  exact ⟨hk.stored, hk.listed, hk.unique, hk.gone, hk.dead, hk.posts, hk.answers⟩

/-- A note about a POST of an accepted event. -/
theorem Kept.note_post (hk : Kept msg w) (he : e ∈ acceptedIn w.log) {entry : Entry}
    (hentry : entry = .posted (request msg e) ∨ ∃ o, entry = .answered (request msg e) o) :
    Kept msg (w.note entry) := by
  have hacc : acceptedIn (w.log ++ [entry]) = acceptedIn w.log := by
    rcases hentry with rfl | ⟨o, rfl⟩ <;> simp [acceptedIn]
  refine ⟨?_, hk.listed, ?_, ?_, ?_, ?_, ?_⟩ <;> dsimp only [World.note] <;> rw [hacc]
  · exact hk.stored
  · exact hk.unique
  · exact fun e' he' hn => (hk.gone e' he' hn).imp Acknowledged.mono DeadLettered.mono
  · intro r hr
    have hold : Entry.deadLettered r ∈ w.log := by
      rcases hentry with rfl | ⟨o, rfl⟩ <;> simpa using hr
    obtain ⟨hra, hrp, hrd⟩ := hk.dead r hold
    exact ⟨hra, hrp, hrd.imp id fun hx => List.mem_append_left _ hx⟩
  · intro req hreq
    rcases List.mem_append.mp hreq with hreq | hreq
    · exact hk.posts req hreq
    · rcases hentry with rfl | ⟨o, rfl⟩
      · cases List.mem_singleton.mp hreq
        exact ⟨e, he, rfl⟩
      · cases List.mem_singleton.mp hreq
  · intro req o hreq
    rcases List.mem_append.mp hreq with hreq | hreq
    · exact hk.answers req o hreq
    · rcases hentry with rfl | ⟨o, rfl⟩
      · cases List.mem_singleton.mp hreq
      · cases List.mem_singleton.mp hreq
        exact ⟨e, he, rfl⟩

theorem Kept.expire (hk : Kept msg w) (id : String) : Kept msg (Webhook.expire id w) := by
  have hacc : acceptedIn (w.log ++ [.expired id]) = acceptedIn w.log := by simp [acceptedIn]
  refine ⟨?_, hk.listed, ?_, ?_, ?_, ?_, ?_⟩ <;> dsimp only [Webhook.expire, World.note] <;>
    rw [hacc]
  · exact hk.stored
  · exact hk.unique
  · exact fun e' he' hn => (hk.gone e' he' hn).imp Acknowledged.mono DeadLettered.mono
  · intro r hr
    obtain ⟨hra, hrp, hrd⟩ := hk.dead r (by simpa using hr)
    refine ⟨hra, hrp, ?_⟩
    by_cases hid : r.event.eventId = id
    · exact .inr (by simp [hid])
    · exact hrd.imp (fun hd => by rwa [Function.update_of_ne hid])
        fun hx => List.mem_append_left _ hx
  · exact fun req hreq => hk.posts req (by simpa using hreq)
  · exact fun req o hreq => hk.answers req o (by simpa using hreq)

/-- A new event is stored under its id. -/
theorem Kept.enqueue (hk : Kept msg w) {now : Nat} (hf : Fresh (.enqueue r now) w.log)
    (hr : r.attemptCount = 0) : Kept msg (w.exec (.enqueue r now)) := by
  have hacc : acceptedIn (w.log ++ [.accepted r.event]) = acceptedIn w.log ++ [r.event] := by
    simp [acceptedIn]
  have hnew : ∀ e ∈ acceptedIn w.log, e.eventId ≠ r.event.eventId :=
    fun e he heq => hf (List.mem_map.mpr ⟨e, he, heq⟩)
  have hfar : ∀ e ∈ acceptedIn w.log, Function.update w.keys.payload r.event.eventId (some r)
      e.eventId = w.keys.payload e.eventId :=
    fun e he => Function.update_of_ne (hnew e he) _ _
  refine ⟨?_, ?_, ?_, ?_, ?_, ?_, ?_⟩ <;>
    dsimp only [World.exec, WebhookStoreCmd.run, WebhookKeys.schedule, trace] <;>
    (try rw [hacc])
  · intro id r' hp
    by_cases hid : id = r.event.eventId
    · subst hid
      rw [Function.update_self] at hp
      cases hp
      refine ⟨rfl, by simp, ?_, by simp⟩
      rw [hr]
      exact msg.config.maxAttempts_pos
    · rw [Function.update_of_ne hid] at hp
      obtain ⟨h1, h2, h3, h4⟩ := hk.stored id r' hp
      exact ⟨h1, List.mem_append_left _ h2, h3, SortedSet.mem_insert.mpr (.inr h4)⟩
  · intro id hid
    by_cases he : id = r.event.eventId
    · simp [he]
    · rw [Function.update_of_ne he]
      exact hk.listed id ((SortedSet.mem_insert.mp hid).resolve_left he)
  · intro e he e' he' heq
    rcases List.mem_append.mp he with he | he <;> rcases List.mem_append.mp he' with he' | he'
    · exact hk.unique e he e' he' heq
    · cases List.mem_singleton.mp he'
      exact absurd heq (hnew e he)
    · cases List.mem_singleton.mp he
      exact absurd heq.symm (hnew e' he')
    · rw [List.mem_singleton.mp he, List.mem_singleton.mp he']
  · intro e he hn
    rcases List.mem_append.mp he with he | he
    · rw [hfar e he] at hn
      exact (hk.gone e he hn).imp Acknowledged.mono DeadLettered.mono
    · cases List.mem_singleton.mp he
      simp at hn
  · intro r' hr'
    obtain ⟨hra, hrp, hrd⟩ := hk.dead r' (by simpa using hr')
    refine ⟨List.mem_append_left _ hra, ?_, hrd.imp (fun hd => hd) fun hx =>
      List.mem_append_left _ hx⟩
    rw [hfar _ hra, hrp]
  · intro req hreq
    obtain ⟨e, he, heq⟩ := hk.posts req (by simpa using hreq)
    exact ⟨e, List.mem_append_left _ he, heq⟩
  · intro req o hreq
    obtain ⟨e, he, heq⟩ := hk.answers req o (by simpa using hreq)
    exact ⟨e, List.mem_append_left _ he, heq⟩

theorem Kept.reschedule (hk : Kept msg w) {at' : ℚ} (hl : Lawful msg w (.reschedule r at')) :
    Kept msg (w.exec (.reschedule r at')) := by
  obtain ⟨hmax, r₀, hr₀, he₀⟩ := hl
  obtain ⟨-, hacc₀, -, hpend⟩ := hk.stored _ _ hr₀
  have hacc : acceptedIn (w.log ++ [.scheduled r]) = acceptedIn w.log := by simp [acceptedIn]
  have hnone : ∀ id, Function.update w.keys.payload r.event.eventId (some r) id = none ↔
      w.keys.payload id = none := by
    intro id
    by_cases hid : id = r.event.eventId
    · simp [hid, hr₀]
    · rw [Function.update_of_ne hid]
  refine ⟨?_, ?_, ?_, ?_, ?_, ?_, ?_⟩ <;>
    dsimp only [World.exec, WebhookStoreCmd.run, WebhookKeys.schedule, trace] <;>
    (try rw [hacc])
  · intro id r' hp
    by_cases hid : id = r.event.eventId
    · subst hid
      rw [Function.update_self] at hp
      cases hp
      exact ⟨rfl, he₀ ▸ hacc₀, hmax, by simp⟩
    · rw [Function.update_of_ne hid] at hp
      obtain ⟨h1, h2, h3, h4⟩ := hk.stored id r' hp
      exact ⟨h1, h2, h3, SortedSet.mem_insert.mpr (.inr h4)⟩
  · intro id hid
    rw [ne_eq, hnone]
    rcases SortedSet.mem_insert.mp hid with rfl | hid
    · exact hk.listed _ hpend
    · exact hk.listed id hid
  · exact hk.unique
  · intro e he hn
    exact (hk.gone e he ((hnone _).mp hn)).imp Acknowledged.mono DeadLettered.mono
  · intro r' hr'
    obtain ⟨hra, hrp, hrd⟩ := hk.dead r' (by simpa using hr')
    exact ⟨hra, (hnone _).mpr hrp, hrd.imp (fun hd => hd) fun hx => List.mem_append_left _ hx⟩
  · exact fun req hreq => hk.posts req (by simpa using hreq)
  · exact fun req o hreq => hk.answers req o (by simpa using hreq)

/-- A payload is deleted once its event is over. -/
theorem Kept.forget (hk : Kept msg w) {x : Entry} {l : String → Option AttemptedRecord}
    (hacc : acceptedIn (w.log ++ [x]) = acceptedIn w.log)
    (hposts : ∀ req, .posted req ∈ w.log ++ [x] → .posted req ∈ w.log)
    (hanswers : ∀ req o, .answered req o ∈ w.log ++ [x] → .answered req o ∈ w.log)
    (hover : ∀ e ∈ acceptedIn w.log, e.eventId = id → w.keys.payload id ≠ none →
      Acknowledged msg e (w.log ++ [x]) ∨ DeadLettered e (w.log ++ [x]))
    (hdead : ∀ r, .deadLettered r ∈ w.log ++ [x] → r.event ∈ acceptedIn w.log ∧
      (r.event.eventId ≠ id → w.keys.payload r.event.eventId = none) ∧
      (l r.event.eventId = some r ∨ .expired r.event.eventId ∈ w.log)) :
    Kept msg { w with
      keys := { w.keys with deadLetter := l }.forget id, log := w.log ++ [x] } := by
  refine ⟨?_, ?_, ?_, ?_, ?_, ?_, ?_⟩ <;> dsimp only [WebhookKeys.forget] <;> (try rw [hacc])
  · intro id' r' hp
    by_cases hid : id' = id
    · rw [hid, Function.update_self] at hp
      cases hp
    · rw [Function.update_of_ne hid] at hp
      obtain ⟨h1, h2, h3, h4⟩ := hk.stored id' r' hp
      exact ⟨h1, h2, h3, SortedSet.mem_remove.mpr ⟨h4, hid⟩⟩
  · intro id' hid'
    obtain ⟨hmem, hid⟩ := SortedSet.mem_remove.mp hid'
    rw [Function.update_of_ne hid]
    exact hk.listed id' hmem
  · exact hk.unique
  · intro e he hn
    by_cases hid : e.eventId = id
    · by_cases hp : w.keys.payload id = none
      · exact (hk.gone e he (hid ▸ hp)).imp Acknowledged.mono DeadLettered.mono
      · exact hover e he hid hp
    · rw [Function.update_of_ne hid] at hn
      exact (hk.gone e he hn).imp Acknowledged.mono DeadLettered.mono
  · intro r' hr'
    obtain ⟨hra, hrp, hrd⟩ := hdead r' hr'
    refine ⟨hra, ?_, hrd.imp (fun hd => hd) fun hx => List.mem_append_left _ hx⟩
    by_cases hid : r'.event.eventId = id
    · rw [hid, Function.update_self]
    · rw [Function.update_of_ne hid]
      exact hrp hid
  · exact fun req hreq => hk.posts req (hposts req hreq)
  · exact fun req o hreq => hk.answers req o (hanswers req o hreq)

theorem Kept.complete (hk : Kept msg w) (hl : Lawful msg w (.complete id)) :
    Kept msg (w.exec (.complete id)) := by
  refine hk.forget (x := .completed id) (l := w.keys.deadLetter) (by simp [acceptedIn])
    (fun _ h => by simpa using h) (fun _ _ h => by simpa using h) ?_ ?_
  · intro e he hid hp
    obtain ⟨r₀, hr₀, hack⟩ := hl.2.resolve_left hp
    obtain ⟨hrid, hracc, -, -⟩ := hk.stored id r₀ hr₀
    have hsame : e = r₀.event := hk.unique e he _ hracc (hid.trans hrid.symm)
    exact .inl (hsame ▸ hack.mono)
  · intro r' hr'
    obtain ⟨hra, hrp, hrd⟩ := hk.dead r' (by simpa using hr')
    exact ⟨hra, fun _ => hrp, hrd⟩

theorem Kept.deadLetter (hk : Kept msg w) {ttl : Nat} (hl : Lawful msg w (.deadLetter r ttl)) :
    Kept msg (w.exec (.deadLetter r ttl)) := by
  obtain ⟨r₀, hr₀, he₀⟩ := hl
  obtain ⟨-, hacc₀, -, -⟩ := hk.stored _ _ hr₀
  refine hk.forget (x := .deadLettered r) (by simp [acceptedIn])
    (fun _ h => by simpa using h) (fun _ _ h => by simpa using h) ?_ ?_
  · intro e he hid _
    have hsame : e = r.event := hk.unique e he _ (he₀ ▸ hacc₀) hid
    exact .inr ⟨r, by simp, hsame.symm⟩
  · intro r' hr'
    rcases List.mem_append.mp hr' with hr' | hr'
    · obtain ⟨hra, hrp, hrd⟩ := hk.dead r' hr'
      have hne : r'.event.eventId ≠ r.event.eventId := fun hid => by
        rw [hid, hr₀] at hrp
        cases hrp
      exact ⟨hra, fun _ => hrp, by rwa [Function.update_of_ne hne]⟩
    · cases List.mem_singleton.mp hr'
      exact ⟨he₀ ▸ hacc₀, fun hne => absurd rfl hne, .inl (by simp)⟩

/-- What the store commands preserve. -/
theorem Kept.exec (hk : Kept msg w) (hf : Fresh c w.log) (hl : Lawful msg w c) :
    Kept msg (w.exec c) := by
  cases c with
  | enqueue r now => exact hk.enqueue hf hl
  | reschedule r t => exact hk.reschedule hl
  | complete id => exact hk.complete hl
  | deadLetter r ttl => exact hk.deadLetter hl
  | listDueEventIds now => simpa [World.exec, WebhookStoreCmd.run, trace] using hk
  | getRecord id => simpa [World.exec, WebhookStoreCmd.run, trace] using hk

end DeviceMessaging.Webhook
