import DeviceMessaging.WebhookRuns

namespace DeviceMessaging.Webhook

open Effect BoundedRetry

variable {msg : Messenger} {w w' : World} {c : WebhookStoreCmd} {e : WebhookEvent}
  {r : AttemptedRecord} {id : String} {g : Grip} {due : List String} {phase : Phase} {o : Outcome}

theorem acceptedIn_exec (hc : ∀ r now, c ≠ .enqueue r now) :
    acceptedIn (w.exec c).log = acceptedIn w.log := by
  cases c with
  | enqueue r now => exact absurd rfl (hc r now)
  | _ => simp [World.exec, trace, acceptedIn]

theorem Allowed.not_enqueue (hc : Allowed msg g (.store c)) (r : AttemptedRecord) (now : Nat) :
    c ≠ .enqueue r now := by
  rintro rfl
  obtain ⟨due, phase⟩ := g
  cases phase <;> cases hc

/-- The commands of a drain find what they are meant for. -/
theorem lawful_of_allowed (hk : Kept msg w) (hf : Facts msg g w) (hc : Allowed msg g (.store c)) :
    Lawful msg w c := by
  obtain ⟨due, phase⟩ := g
  cases c with
  | enqueue r now => exact absurd rfl (hc.not_enqueue r now)
  | listDueEventIds now => trivial
  | getRecord id => trivial
  | reschedule r' t =>
    cases phase with
    | loaded r =>
      obtain rfl : r' = r := hc
      have hr := hf.held r' rfl
      exact ⟨(hk.stored _ _ hr).2.2.1, r', hr, rfl⟩
    | answered r o =>
      obtain ⟨-, he, hn, hlt⟩ := hc
      have hr := hf.held r rfl
      exact ⟨hn ▸ hlt, r, he ▸ hr, he⟩
    | _ => cases hc
  | complete id' =>
    cases phase with
    | missing id =>
      obtain rfl : id' = id := hc
      obtain ⟨hp, hacc⟩ := hf.missing id' rfl
      exact ⟨hacc, .inl hp⟩
    | answered r o =>
      obtain ⟨hv, rfl⟩ := hc
      have hr := hf.held r rfl
      have hstored := hk.stored _ _ hr
      refine ⟨List.mem_map_of_mem hstored.2.1, .inr ⟨r, hr, ?_⟩⟩
      have hans := hf.answered r o rfl
      cases o with
      | error m => cases hv
      | ok status =>
        refine ⟨status, hans, ?_⟩
        by_contra hn
        unfold verdict at hv
        dsimp only at hv
        rw [if_neg hn] at hv
        split at hv <;> cases hv
    | _ => cases hc
  | deadLetter r' ttl =>
    cases phase with
    | answered r o =>
      have hr := hf.held r rfl
      exact ⟨r, hc.1 ▸ hr, hc.1⟩
    | _ => cases hc

theorem reads_run (hk : Kept msg w) : Reads (.store c) (.ok (c.run w.keys).1) := by
  cases c with
  | getRecord id =>
    dsimp only [WebhookStoreCmd.run]
    cases hp : w.keys.payload id with
    | none => trivial
    | some r => exact (hk.stored id r hp).1
  | _ => trivial

/-- A drain that is at no event knows its batch. -/
theorem facts_between (hdue : ∀ id ∈ due, id ∈ (acceptedIn w.log).map (·.eventId))
    (hp : phase = .idle ∨ phase = .aborted) : Facts msg ⟨due, phase⟩ w where
  due := hdue
  missing id h := by rcases hp with rfl | rfl <;> cases h
  held r h := by rcases hp with rfl | rfl <;> cases h
  answered r o h := by rcases hp with rfl | rfl <;> cases h

theorem Kept.due_accepted (hk : Kept msg w) {now : Nat} {ids : List String}
    (hids : ids = w.keys.pending.due now webhookDrainBatchSize) :
    ∀ id ∈ ids, id ∈ (acceptedIn w.log).map (·.eventId) := by
  rintro id hid
  rw [hids] at hid
  obtain ⟨k, hmem, -⟩ := SortedSet.mem_due hid
  obtain ⟨r, hr⟩ := Option.ne_none_iff_exists'.mp (hk.listed id (SortedSet.mem_iff.mpr ⟨k, hmem⟩))
  obtain ⟨rfl, hacc, -⟩ := hk.stored id r hr
  exact List.mem_map_of_mem hacc

theorem Facts.store (hk : Kept msg w) (hf : Facts msg g w) (hc : Allowed msg g (.store c)) :
    Facts msg (g.after (.store c) (.ok (c.run w.keys).1)) (w.exec c) := by
  have hacc := acceptedIn_exec (w := w) hc.not_enqueue
  have hdue : ∀ id ∈ g.due, id ∈ (acceptedIn (w.exec c).log).map (·.eventId) := by
    rw [hacc]
    exact hf.due
  obtain ⟨due, phase⟩ := g
  cases c with
  | enqueue r now => exact absurd rfl (hc.not_enqueue r now)
  | listDueEventIds now =>
    refine facts_between ?_ (.inl rfl)
    rw [hacc]
    exact hk.due_accepted rfl
  | getRecord id =>
    cases phase with
    | idle =>
      have hid := hdue id hc
      dsimp only [WebhookStoreCmd.run]
      cases hp : w.keys.payload id with
      | none =>
        refine ⟨hdue, ?_, ?_, ?_⟩
        · intro id' h
          cases h
          exact ⟨hp, hid⟩
        · intro r h
          cases h
        · intro r o h
          cases h
      | some r =>
        refine ⟨hdue, ?_, ?_, ?_⟩
        · intro id' h
          cases h
        · intro r' h
          cases h
          obtain ⟨rfl, -⟩ := hk.stored id r hp
          exact hp
        · intro r o h
          cases h
    | _ => cases hc
  | reschedule r' t =>
    cases phase with
    | loaded r =>
      refine ⟨hdue, ?_, ?_, ?_⟩
      · intro id' h
        cases h
      · intro r'' h
        cases h
        exact Function.update_self _ _ _
      · intro r o h
        cases h
    | answered r o => exact facts_between hdue (.inl rfl)
    | _ => cases hc
  | complete id =>
    cases phase with
    | missing id' => exact facts_between hdue (.inl rfl)
    | answered r o => exact facts_between hdue (.inl rfl)
    | _ => cases hc
  | deadLetter r' ttl =>
    cases phase with
    | answered r o => exact facts_between hdue (.inl rfl)
    | _ => cases hc

/-- The event a store command writes. -/
def target (c : WebhookStoreCmd) : Option String :=
  match c with
  | .enqueue r _ => some r.event.eventId
  | .reschedule r _ => some r.event.eventId
  | .complete id => some id
  | .deadLetter r _ => some r.event.eventId
  | _ => none

theorem payload_exec (h : target c ≠ some id) :
    (w.exec c).keys.payload id = w.keys.payload id := by
  cases c with
  | listDueEventIds now => rfl
  | getRecord id' => rfl
  | _ =>
    have hne : id ≠ _ := fun e => h (congrArg some e.symm)
    exact Function.update_of_ne hne _ _

theorem moves_exec (h : target c ≠ some id) : moves id (w.exec c).log = moves id w.log := by
  cases c with
  | listDueEventIds now => exact congrArg _ (List.append_nil _)
  | getRecord id' => exact congrArg _ (List.append_nil _)
  | enqueue r now => exact moves_other rfl
  | _ => exact moves_other (if_neg fun e => h (congrArg some e))

theorem AtRest.elsewhere (hr : AtRest msg w e) (h : target c ≠ some e.eventId) :
    AtRest msg (w.exec c) e :=
  hr.frame (payload_exec h) (moves_exec h)

theorem orderly_between (hp : phase.inHand = none) (hne : phase ≠ .aborted)
    (h : ∀ e ∈ acceptedIn w.log, AtRest msg w e) : Orderly msg ⟨due, phase⟩ w where
  going := hne
  others e he _ := h e he
  held r hr := by
    dsimp only at hr
    rw [hp] at hr
    cases hr

/-- The event in hand is put to rest. -/
theorem Orderly.over (ho : Orderly msg g w) (hc : ∀ r now, c ≠ .enqueue r now)
    (hin : g.phase.inHand = some r) (ht : target c = some r.event.eventId)
    (hr : AtRest msg (w.exec c) r.event) : Orderly msg ⟨due, .idle⟩ (w.exec c) := by
  refine orderly_between rfl (fun h => nomatch h) fun e he => ?_
  rw [acceptedIn_exec hc] at he
  by_cases hid : e.eventId = r.event.eventId
  · unfold AtRest at hr ⊢
    rwa [hid]
  · refine (ho.others e he fun r' hr' => ?_).elsewhere fun h => hid ?_
    · rw [hin] at hr'
      cases hr'
      exact hid
    · exact Option.some.inj (h.symm.trans ht)

/-- A store command of a drain that goes through keeps the histories in order. -/
theorem Orderly.store (hk : Kept msg w) (hf : Facts msg g w) (ho : Orderly msg g w)
    (hc : Allowed msg g (.store c)) :
    Orderly msg (g.after (.store c) (.ok (c.run w.keys).1)) (w.exec c) := by
  have hno := hc.not_enqueue
  have hacc := acceptedIn_exec (w := w) hno
  have hall : g.phase.inHand = none → ∀ e ∈ acceptedIn (w.exec c).log, target c ≠ some e.eventId →
      AtRest msg (w.exec c) e := by
    intro hin e he hne
    rw [hacc] at he
    refine (ho.others e he fun r hr => ?_).elsewhere hne
    rw [hin] at hr
    cases hr
  obtain ⟨due, phase⟩ := g
  cases c with
  | enqueue r now => exact absurd rfl (hno r now)
  | listDueEventIds now =>
    cases phase with
    | idle => exact orderly_between rfl (fun h => nomatch h) fun e he => hall rfl e he nofun
    | _ => cases hc
  | getRecord id =>
    cases phase with
    | idle =>
      dsimp only [WebhookStoreCmd.run]
      cases hp : w.keys.payload id with
      | none => exact orderly_between rfl (fun h => nomatch h) fun e he => hall rfl e he nofun
      | some r =>
        refine ⟨fun h => (nomatch h), fun e he _ => hall rfl e he nofun, fun r' hr' => ?_⟩
        obtain rfl := Option.some.inj hr'
        obtain ⟨rfl, hmem, -⟩ := hk.stored id r hp
        have hrest := hall rfl r.event (hacc ▸ hmem) nofun
        unfold AtRest at hrest
        have hsame : (w.exec (.getRecord r.event.eventId)).keys.payload r.event.eventId = some r := hp
        rw [hsame] at hrest
        exact hrest
    | _ => cases hc
  | reschedule r' t =>
    cases phase with
    | loaded r =>
      obtain rfl : r' = r := hc
      refine ⟨fun h => (nomatch h), fun e he hne => ?_, fun r'' hr'' => ?_⟩
      · rw [hacc] at he
        refine (ho.others e he fun r'' hr'' => ?_).elsewhere fun h => hne r' rfl ?_
        · cases hr''
          exact hne r' rfl
        · exact (Option.some.inj h).symm
      · cases hr''
        exact jobOf_snoc (if_pos rfl) (ho.held r' rfl) (by simp [Job.step])
    | answered r o =>
      obtain ⟨hv, he, hn, hlt⟩ := hc
      refine ho.over hno rfl (congrArg (some ∘ WebhookEvent.eventId) he) ?_
      unfold AtRest
      have hp : (w.exec (.reschedule r' t)).keys.payload r.event.eventId = some r' := by
        rw [← he]
        exact Function.update_self _ _ _
      rw [hp]
      dsimp only
      refine jobOf_snoc (if_pos (congrArg _ he)) (ho.held r rfl) ?_
      rw [hv, hn]
      simp [Job.step, hlt]
    | _ => cases hc
  | complete id' =>
    cases phase with
    | missing id =>
      obtain rfl : id' = id := hc
      refine orderly_between rfl (fun h => nomatch h) fun e he => ?_
      by_cases hid : e.eventId = id'
      · have hrest := ho.others e (hacc ▸ he) fun r hr => nomatch hr
        have hp := (hf.missing id' rfl).1
        unfold AtRest at hrest ⊢
        rw [hid] at hrest ⊢
        rw [hp] at hrest
        have hp' : (w.exec (.complete id')).keys.payload id' = none := Function.update_self _ _ _
        rw [hp']
        exact hrest.imp (fun h => jobOf_snoc (if_pos rfl) h rfl) fun h =>
          jobOf_snoc (if_pos rfl) h rfl
      · exact hall rfl e he fun h => hid (Option.some.inj h).symm
    | answered r o =>
      obtain ⟨hv, rfl⟩ := hc
      refine ho.over hno rfl rfl ?_
      unfold AtRest
      have hp : (w.exec (.complete r.event.eventId)).keys.payload r.event.eventId = none :=
        Function.update_self _ _ _
      rw [hp]
      refine .inl (jobOf_snoc (if_pos rfl) (ho.held r rfl) ?_)
      rw [hv]
      rfl
    | _ => cases hc
  | deadLetter r' ttl =>
    cases phase with
    | answered r o =>
      obtain ⟨he, hv⟩ := hc
      refine ho.over hno rfl (congrArg (some ∘ WebhookEvent.eventId) he) ?_
      unfold AtRest
      have hp : (w.exec (.deadLetter r' ttl)).keys.payload r.event.eventId = none := by
        rw [← he]
        exact Function.update_self _ _ _
      rw [hp]
      refine .inr (jobOf_snoc (if_pos (congrArg _ he)) (ho.held r rfl) ?_)
      rcases hv with hv | ⟨hv, hmax⟩ <;> rw [hv]
      · rfl
      · simp [Job.step, hmax]
    | _ => cases hc

end DeviceMessaging.Webhook
