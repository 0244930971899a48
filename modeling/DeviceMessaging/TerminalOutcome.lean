import DeviceMessaging.Durability

namespace DeviceMessaging

open Effect

variable {svc : Service} {x y : Process}

/-- The message is stored, with the device its enqueue wrote. -/
def Store.Stands (s : Store) (id : MessageId) : Prop :=
  (s.redis.messages id).bind (·.device) ≠ none

/-- A handler that has told the outcome of a message waits to purge it. -/
def AboutToPurge (x : Process) (i : Nat) (id : MessageId) : Prop :=
  ∃ h c, x.waiting i = some (h, c) ∧ h.isCancel = false ∧ c.purges = some id

/-- A terminal event is handed over while its message still stands, and no other
handler that has told its outcome is yet to purge it. -/
def OutcomeStands (x : Process) (a : Choice Handler Oracle Disturbance) : Prop :=
  ∀ i o h record now id, a = .turn i o →
    x.waiting i = some (h, .redis (.webhookEnqueue record now)) → record.terminalOf = some id →
    x.world.store.Stands id ∧ ∀ j, ¬ AboutToPurge x j id

theorem outcomes_ne_nil {s : Store} {id : MessageId} : s.outcomes id ≠ [] ↔ s.Reported id := by
  unfold Store.outcomes Store.Reported
  rw [← List.length_pos_iff, List.length_filter_pos_iff]
  simp only [decide_eq_true_eq]

theorem outcomes_eq_nil {s : Store} {id : MessageId} : s.outcomes id = [] ↔ ¬ s.Reported id := by
  rw [← outcomes_ne_nil, not_not]

/-- Only an enqueue of its id makes a message stand again. -/
theorem stands_exec {s : Store} {c : RedisCmd} {i id : MessageId} (hf : c.Fresh i s)
    (hid : id ∈ s.named) (hs : (s.exec c i).2.Stands id) : s.Stands id := by
  have hw := exec_hashWrite s c i
  unfold Store.Stands at hs ⊢
  generalize (s.exec c i).2.redis.messages = f at hw hs
  have hold : ∀ {m : MessageId} {v}, f = Function.update s.redis.messages m v → id ≠ m →
      (s.redis.messages id).bind (·.device) ≠ none := by
    intro m v he hne
    rwa [he, Function.update_of_ne hne] at hs
  cases hw with
  | keep => exact hs
  | enqueue =>
    refine hold rfl fun e => ?_
    exact (hf rfl).2 (e ▸ hid)
  | @move a h hh =>
    by_cases e : id = a.messageId
    · have hd : (movedHash a h).device = h.device := by
        unfold movedHash setDelivery
        split <;> rfl
      subst e
      simpa [hh, hd] using hs
    · exact hold rfl e
  | @pick a m h hh =>
    by_cases e : id = m
    · subst e
      simpa [hh, pickedHash] using hs
    · exact hold rfl e
  | @retry a =>
    by_cases e : id = a.messageId
    · subst e
      cases hm : s.redis.messages a.messageId with
      | none => simp [hm, retryHash, setRetry] at hs
      | some h => simpa [hm, retryHash, setRetry] using hs
    · exact hold rfl e
  | @purge m =>
    by_cases e : id = m.id
    · simp [e] at hs
    · exact hold rfl e

/-- No message stands after its purge. -/
theorem purge_stands {s : Store} {c : RedisCmd} {i id : MessageId}
    (hc : (Cmd.redis c).purges = some id) : ¬ (s.exec c i).2.Stands id := by
  cases c with
  | messageFullCleanup m qs =>
    cases Option.some.inj hc
    have he : (s.exec (.messageFullCleanup m qs) i).2.redis.messages = _ :=
      cleanup_messages m qs s.redis
    simp [Store.Stands, he]
  | _ => cases hc

/-- A message has at most one outcome, and once it has one it is about to be
purged or stands no more. -/
structure OneOutcome (x : Process) : Prop where
  atMostOne : ∀ id, (x.world.store.outcomes id).length ≤ 1
  settled : ∀ id, x.world.store.Reported id →
    (∃ i, AboutToPurge x i id) ∨ ¬ x.world.store.Stands id
  named : ∀ id, x.world.store.Reported id → id ∈ x.world.store.named

theorem oneOutcome_initial : OneOutcome Process.initial where
  atMostOne _ := Nat.zero_le 1
  settled _ h := by
    obtain ⟨record, hr, -⟩ := h
    cases hr
  named _ h := by
    obtain ⟨record, hr, -⟩ := h
    cases hr

/-- A turn that executes a Redis command of the calm process. -/
theorem calm_turn {i : Nat} {o : Oracle} {h : Handler} {c : RedisCmd}
    (hy : (engine svc {}).next (.turn i o) x = some y) (hw : x.waiting i = some (h, .redis c)) :
    ∃ k, x.threads[i]? = some (h, .step (.redis c) k) ∧ c.Fresh o.id x.world.store ∧
      y.world.store = (x.world.store.exec c o.id).2 ∧
      y.waiting i = (k (x.world.store.exec c o.id).1).pending.map fun c => (h, c) := by
  obtain ⟨h', c', k, r, w, ht, hr, rfl, hnext⟩ := System.waiting_turn hy
  have he : (h', c') = (h, .redis c) := by
    simpa [Config.waiting, ht, Prog.pending] using hw
  cases he
  simp only [engine] at hr
  split at hr
  next ho =>
    have hf : o.fault = none := by simpa [oracleAllowed] using ho
    obtain ⟨hfresh, rfl, hw⟩ := respond_calm hf hr
    exact ⟨k, ht, hfresh, congrArg World.store hw, hnext⟩
  next => cases hr

/-- Who has told an outcome issues the purge next. -/
theorem emitted_pending {p : Engine Unit} {id : MessageId}
    (hp : p.wp endWatch (fun _ g => g.Calm) (fun _ g => g.Calm) (.emitted id)) :
    ∃ c, p.pending = some c ∧ c.purges = some id := by
  cases p with
  | pure a => exact absurd rfl (hp id)
  | fail e => exact absurd rfl (hp id)
  | step c k => exact ⟨c, rfl, hp.1⟩

/-- A thread that hands over a terminal event purges the message next. -/
theorem report_then_purge {h : Handler} {record : WebhookStoredRecord} {now : Nat}
    {id : MessageId} {w : World}
    {k : Reply (.redis (.webhookEnqueue record now)) → Engine Unit}
    (hv : endWatchers.Vouches (h, .step (.redis (.webhookEnqueue record now)) k) w)
    (hid : record.terminalOf = some id) :
    h.isCancel = false ∧ ∃ c, (k (.ok ())).pending = some c ∧ c.purges = some id := by
  obtain ⟨g, hwp, -⟩ := hv
  cases hc : h.isCancel with
  | true =>
    simp only [endWatchers, hc, ↓reduceIte] at hwp
    exact absurd rfl (hwp.1 record now)
  | false =>
    simp only [endWatchers, hc, Bool.false_eq_true, ↓reduceIte] at hwp
    refine ⟨rfl, ?_⟩
    cases g with
    | idle =>
      have hk := hwp.2 (.ok ()) (.emitted id) ⟨trivial, by simp [EndPhase.next, hid]⟩
      exact emitted_pending (Prog.wp_mono hk (fun _ _ h => h trivial) fun _ _ h => h trivial)
    | emitted i => cases hwp.1
    | refused i => rcases hwp.1 with h | h <;> cases h

theorem reported_of_exec {s : Store} {c : RedisCmd} {i id : MessageId}
    (hr : (s.exec c i).2.Reported id) (hs : ¬ s.Reported id) :
    ∃ record now, c = .webhookEnqueue record now ∧ record.terminalOf = some id := by
  rcases outcomes_exec s c i id with he | ⟨record, now, hc, hid, -⟩
  · rw [outcomes_eq_nil.mpr hs] at he
    exact absurd hr (outcomes_eq_nil.mp he)
  · exact ⟨record, now, hc, hid⟩

/-- A step leaves what waits waiting, and purges what it was about to purge. -/
theorem aboutToPurge_next {a : Choice Handler Oracle Disturbance} {j : Nat} {id : MessageId}
    (hy : (engine svc {}).next a x = some y) (hj : AboutToPurge x j id) :
    AboutToPurge y j id ∨ ¬ y.world.store.Stands id := by
  obtain ⟨h, c, hw, hc, hp⟩ := hj
  by_cases ha : ∃ o, a = .turn j o
  · obtain ⟨o, rfl⟩ := ha
    cases c with
    | redis c =>
      obtain ⟨k, -, -, hs, -⟩ := calm_turn hy hw
      rw [hs]
      exact .inr (purge_stands hp)
    | _ => cases hp
  · have hcrash : a ≠ .crash := by
      rintro rfl
      cases hy
    exact .inl ⟨h, c, System.waiting_next hy hw (fun o e => ha ⟨o, e⟩) hcrash, hc, hp⟩

theorem oneOutcome_next {a : Choice Handler Oracle Disturbance}
    (hv : ∀ t ∈ x.threads, endWatchers.Vouches t x.world) (hI : OneOutcome x)
    (ha : OutcomeStands x a) (hy : (engine svc {}).next a x = some y) : OneOutcome y := by
  have hold : ∀ id, x.world.store.Reported id →
      (x.world.store.Stands id ∨ ¬ y.world.store.Stands id) →
      (∃ i, AboutToPurge y i id) ∨ ¬ y.world.store.Stands id := by
    intro id hr hs
    rcases hI.settled id hr with ⟨i, hi⟩ | hn
    · exact (aboutToPurge_next hy hi).imp_left fun h => ⟨i, h⟩
    · exact .inr (hs.resolve_left hn)
  rcases store_next hy with he | ⟨i, o, h, c, rfl, hw, hf, he⟩ | ⟨d, rfl, he⟩
  · refine ⟨fun id => he ▸ hI.atMostOne id, fun id hr => ?_, fun id hr => ?_⟩
    · exact hold id (he ▸ hr) (he ▸ em _)
    · exact he ▸ hI.named id (he ▸ hr)
  · -- whoever reports here is the first to do so
    have hfirst : ∀ record now id, c = .webhookEnqueue record now →
        record.terminalOf = some id → ¬ x.world.store.Reported id := by
      rintro record now id rfl hid hr
      obtain ⟨hstands, hnone⟩ := ha i o h record now id rfl hw hid
      rcases hI.settled id hr with ⟨j, hj⟩ | hn
      · exact hnone j hj
      · exact hn hstands
    have hnamed : ∀ id ∈ x.world.store.named, id ∈ y.world.store.named := by
      rw [he]
      exact named_exec _ _ _
    refine ⟨fun id => ?_, fun id hr => ?_, fun id hr => ?_⟩
    · rw [he]
      rcases outcomes_exec x.world.store c o.id id with
        hsame | ⟨record, now, hc, hid, hmore⟩
      · rw [hsame]
        exact hI.atMostOne id
      · rw [hmore, outcomes_eq_nil.mpr (hfirst record now id hc hid)]
        exact le_rfl
    · by_cases hx : x.world.store.Reported id
      · refine hold id hx ?_
        by_cases hs : y.world.store.Stands id
        · exact .inl (stands_exec hf (hI.named id hx) (he ▸ hs))
        · exact .inr hs
      · obtain ⟨record, now, rfl, hid⟩ := reported_of_exec (he ▸ hr) hx
        obtain ⟨k, ht, -, -, hnext⟩ := calm_turn hy hw
        obtain ⟨hc, c', hp, hpurge⟩ := report_then_purge (hv _ (List.mem_of_getElem? ht)) hid
        refine .inl ⟨i, h, c', ?_, hc, hpurge⟩
        rw [hnext]
        exact congrArg (Option.map _) hp
    · by_cases hx : x.world.store.Reported id
      · exact hnamed id (hI.named id hx)
      · obtain ⟨record, now, rfl, hid⟩ := reported_of_exec (he ▸ hr) hx
        rw [he]
        have hm : record.event.message.id = some id := by
          unfold WebhookStoredRecord.terminalOf at hid
          split at hid
          next => exact hid
          next => cases hid
        simp [Store.exec, Store.note, RedisCmd.names, hm]
  · have hs : ∀ id, y.world.store.Stands id → x.world.store.Stands id := by
      intro id hs
      rw [he] at hs
      cases d with
      | elapse ms => exact hs
      | _ => simp [System.next, engine, Disturbance.allowed] at hy
    have hr : ∀ id, y.world.store.Reported id → x.world.store.Reported id := by
      intro id hr
      rw [he] at hr
      exact hr
    refine ⟨fun id => he ▸ hI.atMostOne id, fun id hid => ?_, fun id hid => ?_⟩
    · exact hold id (hr id hid) ((em _).imp_left (hs id))
    · exact he ▸ hI.named id (hr id hid)

/-- In every calm run whose terminal events are handed over for messages that
stand and that nobody else is about to purge, no message has two outcomes. -/
theorem reached_one_outcome (hw : svc.webhook = true) (hx : Reached svc {} OutcomeStands x)
    (id : MessageId) : (x.world.store.outcomes id).length ≤ 1 := by
  have hI : OneOutcome x := by
    induction hx with
    | init => exact oneOutcome_initial
    | step a hx ha hy ih => exact oneOutcome_next (reached_vouched hw hx).2 ih ha hy
  exact hI.atMostOne id

/-- Where another handler has told the outcome and is yet to purge the message, it
is told a second time. -/
theorem outcome_told_twice {i j : Nat} {o : Oracle} {h : Handler} {record : WebhookStoredRecord}
    {now : Nat} {id : MessageId} {ok : Process → Choice Handler Oracle Disturbance → Prop}
    (hw : svc.webhook = true) (hx : Reached svc {} ok x)
    (hy : (engine svc {}).next (.turn i o) x = some y)
    (hi : x.waiting i = some (h, .redis (.webhookEnqueue record now)))
    (hid : record.terminalOf = some id) (hj : AboutToPurge x j id) :
    2 ≤ (y.world.store.outcomes id).length := by
  obtain ⟨h', c, hwait, hc, hp⟩ := hj
  obtain ⟨p, hmem, hpend⟩ := Config.waiting_mem hwait
  have hr := purge_reported ((reached_vouched hw hx).2 _ hmem) hc hpend hp
  have hone := List.length_pos_iff.mpr (outcomes_ne_nil.mpr hr)
  obtain ⟨k, -, -, hs, -⟩ := calm_turn hy hi
  have hmore : y.world.store.outcomes id = x.world.store.outcomes id ++ [record] := by
    simp [hs, Store.outcomes, Store.exec, Store.note, hid]
  rw [hmore, List.length_append, List.length_singleton]
  omega

def outcomeStandsCheck (x : Process) (a : Choice Handler Oracle Disturbance) : Bool :=
  match a with
  | .turn i _ =>
    match x.waiting i with
    | some (_, .redis (.webhookEnqueue record _)) => record.terminalOf.all fun id =>
      ((x.world.store.redis.messages id).bind (·.device)).isSome &&
        (List.range x.threads.length).all fun j =>
          !(x.waiting j).any fun t => !t.1.isCancel && t.2.purges = some id
    | _ => true
  | _ => true

theorem outcomeStandsCheck_sound (x : Process) (a : Choice Handler Oracle Disturbance)
    (h : outcomeStandsCheck x a = true) : OutcomeStands x a := by
  rintro i o hd record now id rfl hw hid
  simp only [outcomeStandsCheck, hw, hid, Option.all_some, Bool.and_eq_true] at h
  refine ⟨Option.isSome_iff_ne_none.mp h.1, fun j hj => ?_⟩
  obtain ⟨h', c, hwait, hc, hp⟩ := hj
  have hlt : j < x.threads.length := by
    obtain ⟨k, ht⟩ := Config.get_of_waiting hwait
    exact (List.getElem?_eq_some_iff.mp ht).1
  have hall := List.all_eq_true.mp h.2 j (List.mem_range.mpr hlt)
  simp [hwait, hc, hp] at hall

/-- The success of the sample command alone is its one outcome. -/
theorem success_one_outcome :
    ∃ x, Reached vendorService {} OutcomeStands x ∧ x.world.store.Reported sampleId ∧
      (x.world.store.outcomes sampleId).length ≤ 1 := by
  obtain ⟨x, hx, hp⟩ := exists_reached vendorService {} outcomeStandsCheck
    (sampleSend ++ successIngress) (fun x => x.world.store.outcomes sampleId ≠ [])
    outcomeStandsCheck_sound (by decide +kernel)
  exact ⟨x, hx, outcomes_ne_nil.mp (of_decide_eq_true hp), reached_one_outcome rfl hx sampleId⟩

/-- The same callback twice: both read the message before either purges it, and
both tell the adopter of its success. -/
theorem duplicate_success_two_outcomes :
    ¬ ∀ x, Reached vendorService {} (fun _ _ => True) x →
      ∀ id, (x.world.store.outcomes id).length ≤ 1 := by
  intro h
  obtain ⟨x, hx, hp⟩ := exists_reached vendorService {} (fun _ _ => true)
    (sampleSend ++ successIngress ++
      .start (.ingress "calin-chirpstack" (sampleEvent .DELIVERY_SUCCESSFUL)) :: turns 5 7 {})
    (fun x => (x.world.store.outcomes sampleId).length = 2) (fun _ _ _ => trivial)
    (by decide +kernel)
  have h1 := h x hx sampleId
  have h2 := of_decide_eq_true hp
  omega

end DeviceMessaging
