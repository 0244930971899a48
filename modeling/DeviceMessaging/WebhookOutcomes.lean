import DeviceMessaging.WebhookTurns

namespace DeviceMessaging.Webhook

open Effect BoundedRetry

/-- A run whose Redis commands succeed and that does not crash. -/
def Calm (weather : Weather) : Prop :=
  weather.faults = false ∧ weather.crashes = false

/-- The drain of a link is the one that runs. -/
def Running (link : Nat) (w : World) : Prop :=
  w.settled = link ∧ w.started = link + 1

variable (msg : Messenger) (weather : Weather)

def watch : Watch Cmd Reply Handler World Grip where
  monitor h :=
    match h with
    | .drain _ => delivers msg
    | _ => emits
  ends h g :=
    match h with
    | .drain _ => g.phase = .ended
    | _ => True
  holds h g w :=
    match h with
    | .drain link => link < w.started ∧ (g.phase ≠ .ended →
        Running link w ∧ Facts msg g w ∧ (Calm weather → Orderly msg g w))
    | _ => True

/-- Every event has a legal history. -/
def Legal (w : World) : Prop :=
  ∀ e ∈ acceptedIn w.log, ∃ j, jobOf msg.config.maxAttempts e.eventId w.log = some j

/-- What holds in every reachable process: at most one drain runs, and while none
runs every event of a calm run is at rest. -/
structure Ordered (x : Process) : Prop where
  kept : Kept msg x.world
  told : Told x.world
  threads : ∀ (j : Nat) t, x.threads[j]? = some t → (watch msg weather).Vouches t x.world
  links : ∀ (i j : Nat) link p q, x.threads[i]? = some (.drain link, p) →
    x.threads[j]? = some (.drain link, q) → i = j
  resting : Calm weather → x.world.started = x.world.settled →
    ∀ e ∈ acceptedIn x.world.log, AtRest msg x.world e
  legal : Calm weather → Legal msg x.world

variable {msg} {weather} {w w' : World} {c : Cmd} {e : WebhookEvent} {g : Grip} {o : Oracle}
  {x y : Process} {a : Choice Handler Oracle String}

theorem AtRest.job (hr : AtRest msg w e) :
    ∃ j, jobOf msg.config.maxAttempts e.eventId w.log = some j := by
  unfold AtRest at hr
  split at hr
  next r hp => exact ⟨_, hr⟩
  next hp => exact hr.elim (fun h => ⟨_, h⟩) fun h => ⟨_, h⟩

theorem Orderly.legal (ho : Orderly msg g w) : Legal msg w := by
  intro e he
  by_cases hin : ∃ r, g.phase.inHand = some r ∧ e.eventId = r.event.eventId
  · obtain ⟨r, hr, hid⟩ := hin
    have hheld := ho.held r hr
    obtain ⟨due, phase⟩ := g
    rw [hid, hheld]
    cases phase with
    | loaded r => exact ⟨_, rfl⟩
    | leased r => exact ⟨_, rfl⟩
    | posting r => exact ⟨_, rfl⟩
    | answered r o => exact ⟨_, rfl⟩
    | _ => cases hr
  · exact (ho.others e he fun r hr hid => hin ⟨r, hr, hid⟩).job

theorem Legal.onward (hl : Legal msg w) (ho : Onward msg w w') : Legal msg w' := by
  intro e he
  rcases ho.fresh e he with he | he
  · obtain ⟨j, hj⟩ := hl e he
    unfold jobOf at hj ⊢
    exact ⟨j, by rw [ho.job e he, hj]⟩
  · exact he.job

theorem Orderly.others_note (ho : Orderly msg g w) {r : AttemptedRecord} {entry : Entry}
    (hin : g.phase.inHand = some r) (he : e ∈ acceptedIn w.log)
    (hne : e.eventId ≠ r.event.eventId)
    (hm : ∀ id, id ≠ r.event.eventId → entry.move id = none) : AtRest msg (w.note entry) e := by
  refine (ho.others e he fun r' hr' => ?_).frame rfl (moves_other (hm _ hne))
  rw [hin] at hr'
  exact Option.some.inj hr' ▸ hne

/-- A POST is issued, or its outcome arrives. -/
theorem post_turn {r : AttemptedRecord} {entry : Entry} {m : BoundedRetry.Move} {p : Phase} {due : List String}
    (hk : Kept msg w) (ht : Told w) (hf : Facts msg g w) (hin : g.phase.inHand = some r)
    (hentry : entry = .posted (request msg r.event) ∨
      ∃ o, entry = .answered (request msg r.event) o)
    (hphase : p.inHand = some r) (hdue : due = g.due)
    (hlog : ∀ r' o, p = .answered r' o → .answered (request msg r'.event) o ∈ w.log ++ [entry])
    (hmove : entry.move r.event.eventId = some m) :
    Kept msg (w.note entry) ∧ Told (w.note entry) ∧ Facts msg ⟨due, p⟩ (w.note entry) ∧
      ((∃ j j', g.phase.job = some j ∧ p.job = some j' ∧
        j.step msg.config.maxAttempts m = some j') →
        p ≠ .aborted → Orderly msg g w → Orderly msg ⟨due, p⟩ (w.note entry)) := by
  have hp := hf.held r hin
  have hmem := (hk.stored _ _ hp).2.1
  have hacc : acceptedIn (w.log ++ [entry]) = acceptedIn w.log := by
    rcases hentry with rfl | ⟨o, rfl⟩ <;> simp [acceptedIn]
  have hfar : ∀ id, id ≠ r.event.eventId → entry.move id = none := by
    intro id hid
    rcases hentry with rfl | ⟨o, rfl⟩ <;> exact if_neg fun h => hid h.symm
  refine ⟨hk.note_post hmem hentry, ht.note_post hmem hentry, ⟨?_, ?_, ?_, hlog⟩, ?_⟩
  · dsimp only [World.note]
    rw [hacc, hdue]
    exact hf.due
  · intro id h
    dsimp only at h
    subst h
    cases hphase
  · intro r' hr'
    obtain rfl := Option.some.inj (hphase.symm.trans hr')
    exact hp
  · rintro ⟨j, j', hj, hj', hstep⟩ hne ho
    refine ⟨hne, fun e he hother => ?_, fun r' hr' => ?_⟩
    · dsimp only [World.note] at he
      rw [hacc] at he
      exact ho.others_note hin he (hother r hphase) hfar
    · obtain rfl := Option.some.inj (hphase.symm.trans hr')
      dsimp only
      rw [hj']
      exact jobOf_snoc hmove ((ho.held r hin).trans hj) hstep

theorem reads_error {c : WebhookStoreCmd} (m : String) : Reads (.store c) (.error m) := by
  cases c <;> trivial

theorem drain_store {c : WebhookStoreCmd} {r : Except String c.Value} (hk : Kept msg w)
    (ht : Told w) (hf : Facts msg g w) (hc : Allowed msg g (.store c))
    (hr : respond o (.store c) w = some (r, w')) :
    Kept msg w' ∧ Told w' ∧ Reads (.store c) r ∧ w'.started = w.started ∧ w'.settled = w.settled ∧
      Facts msg (g.after (.store c) r) w' ∧
      (o.fault = none → Orderly msg g w → Orderly msg (g.after (.store c) r) w') := by
  have hl := lawful_of_allowed hk hf hc
  have hmono : ∀ e ∈ acceptedIn w.log, e ∈ acceptedIn (w.exec c).log :=
    fun e he => acceptedIn_exec (w := w) hc.not_enqueue ▸ he
  have haborted : ∀ w', (∀ e ∈ acceptedIn w.log, e ∈ acceptedIn w'.log) → ∀ m,
      Facts msg (g.after (.store c) (.error m)) w' := by
    intro w' hw' m
    refine facts_between (fun id hid => ?_) (.inr rfl)
    obtain ⟨e, he, rfl⟩ := List.mem_map.mp (hf.due id hid)
    exact List.mem_map_of_mem (hw' e he)
  simp only [respond, execStore] at hr
  split at hr
  next hfresh =>
    split at hr <;> cases hr
    next => exact ⟨hk.exec hfresh hl, ht.exec hk hl, reads_run hk, rfl, rfl, hf.store hk hc,
      fun _ ho => ho.store hk hf hc⟩
    next hfault => exact ⟨hk, ht, reads_error _, rfl, rfl, haborted w (fun _ h => h) _,
      fun h => nomatch hfault.symm.trans h⟩
    next hfault => exact ⟨hk.exec hfresh hl, ht.exec hk hl, reads_error _, rfl, rfl,
      haborted _ hmono _, fun h => nomatch hfault.symm.trans h⟩
  next => cases hr

/-- One turn of the running drain, other than its last. -/
theorem drain_turn {r : Reply c} (hk : Kept msg w) (ht : Told w) (hf : Facts msg g w)
    (hc : Allowed msg g c) (hne : c ≠ .settle) (hr : respond o c w = some (r, w')) :
    Kept msg w' ∧ Told w' ∧ Reads c r ∧ w'.started = w.started ∧ w'.settled = w.settled ∧
      Facts msg (g.after c r) w' ∧
      (o.fault = none → Orderly msg g w → Orderly msg (g.after c r) w') := by
  obtain ⟨due, phase⟩ := g
  cases c with
  | store c => exact drain_store hk ht hf hc hr
  | settle => exact absurd rfl hne
  | dateNow =>
    cases hr
    exact ⟨hk, ht, trivial, rfl, rfl, hf, fun _ ho => ho⟩
  | fetch req =>
    cases phase with
    | leased r₀ =>
      cases hr
      obtain rfl : req = request msg r₀.event := hc
      have hlt := (hk.stored _ _ (hf.held r₀ rfl)).2.2.1
      obtain ⟨hk', ht', hf', ho'⟩ := post_turn (p := .posting r₀) hk ht hf rfl (.inl rfl) rfl
        rfl (fun _ _ h => nomatch h) (if_pos rfl)
      exact ⟨hk', ht', trivial, rfl, rfl, hf', fun _ ho =>
        ho' ⟨_, _, rfl, rfl, if_pos hlt⟩ (fun h => nomatch h) ho⟩
    | _ => cases hc
  | response req =>
    cases phase with
    | posting r₀ =>
      cases hr
      obtain rfl : req = request msg r₀.event := hc
      obtain ⟨hk', ht', hf', ho'⟩ := post_turn (p := .answered r₀ o.outcome) hk ht hf rfl
        (.inr ⟨o.outcome, rfl⟩) rfl rfl
        (fun r' o' h => by cases h; exact List.mem_append_right _ (List.mem_singleton_self _))
        (if_pos rfl)
      exact ⟨hk', ht', trivial, rfl, rfl, hf', fun _ ho =>
        ho' ⟨_, _, rfl, rfl, rfl⟩ (fun h => nomatch h) ho⟩
    | _ => cases hc
  | ulid => cases phase <;> cases hc
  | kick => cases phase <;> cases hc

/-- One turn of what hands over events. -/
theorem emitter_turn {r : Reply c} (hk : Kept msg w) (ht : Told w) (hc : emits.allows g c)
    (hr : respond o c w = some (r, w')) :
    Kept msg w' ∧ Told w' ∧ Onward msg w w' ∧ w'.started = w.started ∧ w'.settled = w.settled := by
  cases c with
  | store c =>
    cases c with
    | enqueue record now =>
      have hzero : record.attemptCount = 0 := hc
      simp only [respond, execStore] at hr
      split at hr
      next hfresh =>
        have hdone : Kept msg (w.exec (.enqueue record now)) ∧ Told (w.exec (.enqueue record now)) ∧
            Onward msg w (w.exec (.enqueue record now)) :=
          ⟨hk.enqueue hfresh hzero, ht.exec hk hzero, onward_enqueue ht hfresh hzero⟩
        split at hr <;> cases hr
        next => exact ⟨hdone.1, hdone.2.1, hdone.2.2, rfl, rfl⟩
        next => exact ⟨hk, ht, onward_same rfl rfl, rfl, rfl⟩
        next => exact ⟨hdone.1, hdone.2.1, hdone.2.2, rfl, rfl⟩
      next => cases hr
    | _ => cases hc
  | fetch req => cases hc
  | response req => cases hc
  | settle => cases hc
  | dateNow =>
    cases hr
    exact ⟨hk, ht, onward_same rfl rfl, rfl, rfl⟩
  | ulid =>
    cases hr
    exact ⟨hk, ht, onward_same rfl rfl, rfl, rfl⟩
  | kick =>
    cases hr
    exact ⟨hk.congr rfl rfl, ht, onward_same rfl rfl, rfl, rfl⟩

theorem service_respond {r : Reply c} (hr : (service msg weather).respond o c w = some (r, w')) :
    respond o c w = some (r, w') ∧ (Calm weather → o.fault = none) := by
  simp only [service] at hr
  split at hr
  next ho =>
    refine ⟨hr, fun hcalm => ?_⟩
    rw [hcalm.1, Bool.or_false] at ho
    exact Option.isNone_iff_eq_none.mp ho
  next => cases hr

/-- A drain that issues a command is the one that runs. -/
theorem Ordered.running (hx : Ordered msg weather x) {i : Nat} {link : Nat}
    {k : Reply c → Code Unit} (hi : x.threads[i]? = some (.drain link, .step c k)) :
    ∃ g, ((delivers msg).allows g c ∧ ∀ r g', (delivers msg).next g c r g' →
        (k r).wp (delivers msg) (fun _ g => g.phase = .ended) (fun _ g => g.phase = .ended) g') ∧
      link < x.world.started ∧ Running link x.world ∧ Facts msg g x.world ∧
      (Calm weather → Orderly msg g x.world) := by
  obtain ⟨g, hwp, hlt, hrun⟩ := hx.threads i _ hi
  have hne : g.phase ≠ .ended := by
    intro he
    have hc : Allowed msg g c := hwp.1
    unfold Allowed at hc
    rw [he] at hc
    exact hc
  exact ⟨g, hwp, hlt, hrun hne⟩

theorem ordered_initial : Ordered msg weather Process.initial where
  kept := kept_empty
  told _ h := nomatch h
  threads _ _ h := nomatch h
  links _ _ _ _ _ h := nomatch h
  resting _ _ _ h := nomatch h
  legal _ _ h := nomatch h

/-- What a thread knows outlasts the turns of the others. -/
theorem Ordered.others (hx : Ordered msg weather x) (hy : (service msg weather).next a x = some y)
    {j : Nat} {h : Handler} {p : Code Unit} (hj : x.threads[j]? = some (h, p))
    (hturn : ∀ o, a ≠ .turn j o) (hcrash : a ≠ .crash)
    (hg : (watch msg weather).holds h g x.world) : (watch msg weather).holds h g y.world := by
  cases h with
  | storeAndEmit message => trivial
  | timer => trivial
  | drain link =>
    obtain ⟨hlt, hrun⟩ := hg
    have honward : ∀ w, Onward msg x.world w → w.started = x.world.started →
        w.settled = x.world.settled → (watch msg weather).holds (.drain link) g w := by
      intro w ho hstarted hsettled
      refine ⟨hstarted ▸ hlt, fun hne => ?_⟩
      obtain ⟨⟨h1, h2⟩, hf, hcalm⟩ := hrun hne
      exact ⟨⟨hsettled ▸ h1, hstarted ▸ h2⟩, hf.onward hx.kept ho,
        fun hc => (hcalm hc).onward hf hx.kept ho⟩
    rcases System.next_cases hy with ⟨h', w, rfl, hw, rfl⟩ |
      ⟨i, o, h', c, k, r, w, rfl, hi, hr, rfl⟩ | ⟨id, w, rfl, hw, rfl⟩ | ⟨w, rfl, hw, rfl⟩
    · simp only [service, startHandler] at hw
      split at hw
      next link' =>
        split at hw <;> cases hw
        next hguard =>
          refine ⟨Nat.lt_succ_of_lt hlt, fun hne => ?_⟩
          obtain ⟨⟨h1, h2⟩, -⟩ := hrun hne
          have hidle := hguard.2.1
          omega
      next =>
        cases hw
        exact honward _ (onward_same rfl rfl) rfl rfl
    · obtain ⟨hr, -⟩ := service_respond hr
      have hij : i ≠ j := fun h => hturn o (h ▸ rfl)
      cases h' with
      | drain link' =>
        obtain ⟨g', hwp, hlt', ⟨h1', h2'⟩, hf', -⟩ := hx.running hi
        have hlink : g.phase ≠ .ended → False := by
          intro hne
          obtain ⟨⟨h1, -⟩, -⟩ := hrun hne
          obtain rfl : link' = link := h1'.symm.trans h1
          exact hij (hx.links i j link' _ _ hi hj)
        refine ⟨?_, fun hne => (hlink hne).elim⟩
        by_cases hsettle : c = .settle
        · subst hsettle
          cases hr
          exact hlt
        · rw [(drain_turn hx.kept hx.told hf' hwp.1 hsettle hr).2.2.2.1]
          exact hlt
      | storeAndEmit message =>
        obtain ⟨g', hwp, -⟩ := hx.threads i _ hi
        obtain ⟨-, -, ho, hs1, hs2⟩ := emitter_turn hx.kept hx.told hwp.1 hr
        exact honward w ho hs1 hs2
      | timer =>
        obtain ⟨g', hwp, -⟩ := hx.threads i _ hi
        obtain ⟨-, -, ho, hs1, hs2⟩ := emitter_turn hx.kept hx.told hwp.1 hr
        exact honward w ho hs1 hs2
    · simp only [service] at hw
      split at hw <;> cases hw
      exact honward _ (onward_expire id _) rfl rfl
    · exact absurd rfl hcrash

theorem Onward.atRest (ho : Onward msg w w') (h : ∀ e ∈ acceptedIn w.log, AtRest msg w e) :
    ∀ e ∈ acceptedIn w'.log, AtRest msg w' e := by
  intro e he
  rcases ho.fresh e he with he | he
  · exact (h e he).frame (ho.payload e he) (ho.job e he)
  · exact he

theorem Ordered.threads_next (hx : Ordered msg weather x)
    (hy : (service msg weather).next a x = some y) :
    ∀ (j : Nat) t, y.threads[j]? = some t → (watch msg weather).Vouches t y.world := by
  refine System.vouched_at_next hx.threads hy ?_ (fun j h p g hj ht hc => hx.others hy hj ht hc) ?_
  · intro h w rfl hw
    cases h with
    | storeAndEmit message =>
      exact ⟨⟨[], .idle⟩, storeAndEmit_emits message, trivial⟩
    | timer => exact ⟨⟨[], .idle⟩, ⟨trivial, fun _ _ _ => trivial⟩, trivial⟩
    | drain link =>
      simp only [service, startHandler] at hw
      split at hw <;> cases hw
      next hguard =>
        obtain ⟨rfl, hsettled, -⟩ := hguard
        refine ⟨⟨[], .idle⟩, drainLink_delivers, Nat.lt_succ_self _, fun _ => ?_⟩
        refine ⟨⟨hsettled.symm, rfl⟩, facts_between (fun id h => nomatch h) (.inl rfl), fun hcalm =>
          orderly_between rfl (fun h => nomatch h) ?_⟩
        exact (onward_same rfl rfl).atRest (hx.resting hcalm hsettled)
  · intro i o h c k r w g rfl hi hr hc hg
    obtain ⟨hr, hfault⟩ := service_respond hr
    cases h with
    | storeAndEmit message => exact ⟨g, rfl, trivial⟩
    | timer => exact ⟨g, rfl, trivial⟩
    | drain link =>
      have hne : g.phase ≠ .ended := by
        intro he
        have hc' : Allowed msg g c := hc
        unfold Allowed at hc'
        rw [he] at hc'
        exact hc'
      obtain ⟨hlt, hrun⟩ := hg
      obtain ⟨⟨h1, h2⟩, hf, hcalm⟩ := hrun hne
      by_cases hsettle : c = .settle
      · subst hsettle
        cases hr
        exact ⟨_, ⟨trivial, rfl⟩, hlt, fun h => absurd rfl h⟩
      · obtain ⟨-, -, hreads, hs1, hs2, hf', ho'⟩ := drain_turn hx.kept hx.told hf hc hsettle hr
        refine ⟨_, ⟨hreads, rfl⟩, hs1 ▸ hlt, fun _ => ⟨⟨hs2 ▸ h1, hs1 ▸ h2⟩, hf', fun hc => ?_⟩⟩
        exact ho' (hfault hc) (hcalm hc)

/-- What the last turn of a drain leaves. -/
theorem settle_rests (hc : Allowed msg g .settle) (ho : Orderly msg g w) :
    ∀ e ∈ acceptedIn w.log, AtRest msg w e := by
  obtain ⟨due, phase⟩ := g
  intro e he
  cases phase with
  | idle => exact ho.others e he fun r hr => nomatch hr
  | aborted => exact absurd rfl ho.going
  | _ => cases hc

theorem Ordered.next (hx : Ordered msg weather x) (hy : (service msg weather).next a x = some y) :
    Ordered msg weather y := by
  have hthreads := hx.threads_next hy
  rcases System.next_cases hy with ⟨h, w, rfl, hw, rfl⟩ | ⟨i, o, h, c, k, r, w, rfl, hi, hr, rfl⟩ |
    ⟨id, w, rfl, hw, rfl⟩ | ⟨w, rfl, hw, rfl⟩
  · have hsame : w.keys = x.world.keys ∧ w.log = x.world.log ∧
        (w.started = w.settled → x.world.started = x.world.settled) ∧
        ∀ link, h = .drain link → link = x.world.started := by
      simp only [service, startHandler] at hw
      split at hw
      next link =>
        split at hw <;> cases hw
        next hguard =>
          obtain ⟨rfl, hsettled, -⟩ := hguard
          exact ⟨rfl, rfl, fun _ => hsettled, fun link h => by cases h; rfl⟩
      next hdrain =>
        cases hw
        exact ⟨rfl, rfl, id, fun link h => absurd h (hdrain link)⟩
    obtain ⟨hkeys, hlog, hidle, hlink⟩ := hsame
    refine ⟨hx.kept.congr hkeys hlog, ?_, hthreads, ?_, fun hc hs =>
      (onward_same hkeys hlog).atRest (hx.resting hc (hidle hs)), fun hc =>
      (hx.legal hc).onward (onward_same hkeys hlog)⟩
    · unfold Told
      rw [hlog]
      exact hx.told
    · have hold : ∀ (j : Nat) link p, (x.threads ++ [(h, (service msg weather).program h)])[j]? =
          some (.drain link, p) → x.threads[j]? = some (.drain link, p) ∧ link < x.world.started ∨
            j = x.threads.length ∧ link = x.world.started := by
        intro j link p hj
        rcases Nat.lt_or_ge j x.threads.length with hlt | hge
        · rw [List.getElem?_append_left hlt] at hj
          obtain ⟨g, -, hg⟩ := hx.threads j _ hj
          exact .inl ⟨hj, hg.1⟩
        · rw [List.getElem?_append_right hge] at hj
          obtain ⟨hz, he⟩ := List.getElem?_eq_some_iff.mp hj
          rw [List.length_singleton] at hz
          rw [List.getElem_singleton] at he
          exact .inr ⟨by omega, hlink link (congrArg Prod.fst he)⟩
      intro i j link p q hi hj
      rcases hold i link p hi with ⟨hi, hi'⟩ | ⟨hi, hi'⟩ <;>
        rcases hold j link q hj with ⟨hj, hj'⟩ | ⟨hj, hj'⟩
      · exact hx.links i j link p q hi hj
      · omega
      · omega
      · omega
  · have hlinks : ∀ (i' j : Nat) link p q, (x.threads.set i (h, k r))[i']? = some (.drain link, p) →
        (x.threads.set i (h, k r))[j]? = some (.drain link, q) → i' = j := by
      have hold : ∀ (j : Nat) link p, (x.threads.set i (h, k r))[j]? = some (.drain link, p) →
          ∃ q, x.threads[j]? = some (.drain link, q) := by
        intro j link p hj
        by_cases hij : i = j
        · subst hij
          rw [List.getElem?_set_self (List.getElem?_eq_some_iff.mp hi).1] at hj
          cases hj
          exact ⟨_, hi⟩
        · rw [List.getElem?_set_ne hij] at hj
          exact ⟨p, hj⟩
      intro i' j link p q hi' hj
      obtain ⟨p', hi'⟩ := hold i' link p hi'
      obtain ⟨q', hj⟩ := hold j link q hj
      exact hx.links i' j link p' q' hi' hj
    obtain ⟨hr, hfault⟩ := service_respond hr
    have hemit : emits.allows (Grip.mk [] .idle) c → Ordered msg weather
        ⟨x.threads.set i (h, k r), w⟩ := by
      intro hc
      obtain ⟨hk, ht, ho, hs1, hs2⟩ := emitter_turn hx.kept hx.told hc hr
      exact ⟨hk, ht, hthreads, hlinks, fun hcalm hs =>
        ho.atRest (hx.resting hcalm (hs1.symm.trans (hs.trans hs2))),
        fun hcalm => (hx.legal hcalm).onward ho⟩
    cases h with
    | storeAndEmit message =>
      obtain ⟨g, hwp, -⟩ := hx.threads i _ hi
      exact hemit hwp.1
    | timer =>
      obtain ⟨g, hwp, -⟩ := hx.threads i _ hi
      exact hemit hwp.1
    | drain link =>
      obtain ⟨g, hwp, hlt, ⟨h1, h2⟩, hf, hcalm⟩ := hx.running hi
      by_cases hsettle : c = .settle
      · subst hsettle
        cases hr
        refine ⟨hx.kept.congr rfl rfl, hx.told, hthreads, hlinks, fun hc _ => ?_, fun hc =>
          (hx.legal hc).onward (onward_same rfl rfl)⟩
        have hrest := settle_rests hwp.1 (hcalm hc)
        exact (onward_same rfl rfl).atRest hrest
      · obtain ⟨hk, ht, -, hs1, hs2, -, ho⟩ := drain_turn hx.kept hx.told hf hwp.1 hsettle hr
        refine ⟨hk, ht, hthreads, hlinks, fun _ hs => ?_, fun hc =>
          (ho (hfault hc) (hcalm hc)).legal⟩
        dsimp only at hs
        omega
  · simp only [service] at hw
    split at hw <;> cases hw
    have ho : Onward msg x.world (expire id x.world) := onward_expire id x.world
    refine ⟨hx.kept.expire id, ?_, hthreads, hx.links, fun hc hs => ho.atRest (hx.resting hc hs),
      fun hc => (hx.legal hc).onward ho⟩
    exact told_snoc hx.told fun id h => absurd rfl h
  · simp only [service] at hw
    split at hw <;> cases hw
    next hcrash =>
      have hnot : ¬ Calm weather := fun hc => by
        rw [hc.2] at hcrash
        cases hcrash
      exact ⟨hx.kept.congr rfl rfl, hx.told, hthreads, fun _ _ _ _ _ h => (nomatch h),
        fun hc => absurd hc hnot, fun hc => absurd hc hnot⟩

theorem reached_ordered (hx : Reached msg weather x) : Ordered msg weather x :=
  hx.invariant ordered_initial fun _ _ _ h _ hy => h.next hy

end DeviceMessaging.Webhook
