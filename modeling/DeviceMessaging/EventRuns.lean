import DeviceMessaging.EventAims
import DeviceMessaging.ExitReferences
import DeviceMessaging.QueueTraffic

namespace DeviceMessaging

open Effect

variable {svc : Service} {weather : Weather} {x y : Process} {parts : Nat → EventPart}
  {A : Application} {plugin : DeliveryPlugin} {w w' : World} {m : MessageId} {i : Nat}

/-- The message is stored, and belongs to another plugin. -/
def Foreign (w : World) (plugin : DeliveryPlugin) (m : MessageId) : Prop :=
  ∃ message, w.loaded m = some message ∧ message.pluginId ≠ some plugin.id

/-- The message is no business of the event: its request, or its hash, names another plugin, or
another message was polled. -/
def Application.OffLimits (A : Application) (w : World) (m : MessageId) : Prop :=
  (∃ create, (m, create) ∈ w.store.enqueued ∧ create.pluginId ≠ A.plugin.id) ∨
    Foreign w A.plugin m ∨ ∃ p, A.polled = some p ∧ m ≠ p

/-- What decides what the event does is not read off such a message: its load, when that is
acted on; its place in the stage a failure takes it from, or a transmission. -/
def Application.Stands (svc : Service) (A : Application) (c : RedisCmd) (w : World) : Prop :=
  match c with
  | .hgetall m => ∀ message, w.loaded m = some message → A.Decides svc message → ¬ A.OffLimits w m
  | .zscore q m => m ∈ w.store.redis.queues q → ¬ A.OffLimits w m
  | .moveMessageBetweenQueues a =>
    a.messageId ∈ w.store.redis.queues a.sourceQueue → ¬ A.OffLimits w a.messageId
  | _ => True

/-- The step is no Redis command of an application, or one that stands. -/
def ApplicationStands (svc : Service) (x : Process) (parts : Nat → EventPart)
    (a : Choice Handler Oracle Disturbance) : Prop :=
  ∀ i o A q c, a = .turn i o → parts i = some (A, q) → q.pending = some (.redis c) →
    A.Stands svc c x.world

/-- The runs of the process with the events that its threads apply, whose every step meets
the condition. -/
abbrev EventRun (svc : Service) (weather : Weather)
    (ok : Process → (Nat → EventPart) → Choice Handler Oracle Disturbance → Prop) :
    Process → (Nat → EventPart) → Prop :=
  (engine svc weather).Recorded ok (noteApplications svc weather) Process.initial fun _ => none

/-- The message has been named, and is the event's business. -/
def Application.Cleared (A : Application) (w : World) (m : MessageId) : Prop :=
  m ∈ w.store.named ∧ ¬ A.OffLimits w m

/-- The hash names the plugin of the request. -/
theorem foreign_requested (hw : Provenance w.store) (hm : Foreign w plugin m) :
    ∃ create, (m, create) ∈ w.store.enqueued ∧ create.pluginId ≠ plugin.id := by
  obtain ⟨message, hl, hne⟩ := hm
  obtain ⟨h, hh, hd⟩ := Option.bind_eq_some_iff.mp hl
  have hd : deserializeMessage m h = .ok message := by
    cases he : deserializeMessage m h with
    | error e => simp [he, Except.toOption] at hd
    | ok message' => simpa [he, Except.toOption] using hd
  obtain ⟨create, hcreate, hp⟩ := hw.requested hh hd
  exact ⟨create, hcreate, fun he => hne (he ▸ hp)⟩

theorem requested_exec {s : Store} {c : RedisCmd} {id : MessageId} {create : CreateDeviceMessage}
    (hf : c.Fresh id s) (hm : m ∈ s.named) (he : (m, create) ∈ (s.exec c id).2.enqueued) :
    (m, create) ∈ s.enqueued := by
  cases c with
  | enqueueDeviceMessage dto q =>
    rcases List.mem_append.mp he with he | he
    · exact he
    · cases List.mem_singleton.mp he
      exact absurd hm (hf rfl).2
  | _ => exact he

/-- What is an event's business stays so. -/
theorem Application.Cleared.next {a : Choice Handler Oracle Disturbance}
    (hm : A.Cleared x.world m) (hy : (engine svc weather).next a x = some y)
    (hprov : Provenance y.world.store) : A.Cleared y.world m := by
  obtain ⟨hnamed, hclear⟩ := hm
  have hstore : m ∈ y.world.store.named ∧ ∀ create, (m, create) ∈ y.world.store.enqueued →
      (m, create) ∈ x.world.store.enqueued := by
    rcases store_next hy with hs | ⟨i, o, h, c, -, -, hf, hs⟩ | ⟨d, -, hs⟩ <;> rw [hs]
    · exact ⟨hnamed, fun _ h => h⟩
    · exact ⟨named_exec _ _ _ _ hnamed, fun _ h => requested_exec hf hnamed h⟩
    · exact ⟨hnamed, fun _ h => h⟩
  have hrequest : ¬ ∃ create, (m, create) ∈ y.world.store.enqueued ∧
      create.pluginId ≠ A.plugin.id := by
    rintro ⟨create, hcreate, hne⟩
    exact hclear (.inl ⟨create, hstore.2 create hcreate, hne⟩)
  refine ⟨hstore.1, ?_⟩
  rintro (h | h | h)
  · exact hrequest h
  · exact hrequest (foreign_requested hprov h)
  · exact hclear (.inr (.inr h))

theorem engine_respond {o : Oracle} {c : Cmd} {r : Reply c}
    (hr : (engine svc weather).respond o c w = some (r, w')) : respond o c w = some (r, w') := by
  simp only [engine] at hr
  split at hr
  next => exact hr
  next => cases hr

/-- A message that a reply aims the application at is the event's business, if the command
stands. -/
theorem Application.Aims.cleared {o : Oracle} {c : Cmd} {r : Reply c}
    (hprov : Provenance w.store) (hqueues : w.store.QueuesNamed)
    (hstands : ∀ b, c = .redis b → A.Stands svc b w) (hr : respond o c w = some (r, w'))
    (hm : A.Aims svc c r m) : A.Cleared w m := by
  unfold Application.Aims at hm
  split at hm
  next z hash =>
    obtain ⟨rfl, message, hd, hdecides⟩ := hm
    have hh : w.store.redis.messages z = some hash := by
      obtain ⟨-, ⟨-, hv, -⟩ | ⟨-, hv, -⟩ | ⟨-, hv, -⟩⟩ := execRedis_cases hr
      · exact (Except.ok.inj hv).symm
      · cases hv
      · cases hv
    have hl : w.loaded z = some message := by simp [World.loaded, hh, hd, Except.toOption]
    exact ⟨hprov.named z (by simp [hh]), hstands _ rfl message hl hdecides⟩
  next q z k =>
    subst hm
    have hk : (w.store.redis.queues q).score z = some k := by
      obtain ⟨-, ⟨-, hv, -⟩ | ⟨-, hv, -⟩ | ⟨-, hv, -⟩⟩ := execRedis_cases hr
      · exact (Except.ok.inj hv).symm
      · cases hv
      · cases hv
    have hmem : z ∈ w.store.redis.queues q := by
      by_contra hne
      rw [SortedSet.score_eq_none.mpr hne] at hk
      cases hk
    exact ⟨hqueues z q hmem, hstands _ rfl hmem⟩
  next => exact hm.elim

/-- What is left of an application is aimed at nothing but the event's business. -/
def Application.Followed (svc : Service) (A : Application) (q : Engine StageOutcome) (w : World) :
    Prop :=
  ∃ aim : MessageId → Prop, q.wp (aiming svc) (fun _ _ => True) (fun _ _ => True) (A, aim) ∧
    ∀ m, aim m → A.Cleared w m

theorem applying_followed {event : ParsedIncomingEvent} {polled : Option MessageId}
    {q : Engine StageOutcome} (h : applying svc plugin event polled = some (A, q)) (w : World) :
    A.Followed svc q w := by
  cases h
  refine ⟨fun _ => False, ?_, fun _ h => h.elim⟩
  exact processEvent_aimed (A := ⟨plugin, event, polled, 0⟩) rfl

theorem ingressPart_followed {h : Handler} {q : Engine StageOutcome}
    (hq : ingressPart svc h = some (A, q)) (w : World) : A.Followed svc q w := by
  unfold ingressPart at hq
  split at hq
  next =>
    obtain ⟨plugin, -, hq⟩ := Option.bind_eq_some_iff.mp hq
    split at hq
    next => exact applying_followed hq w
    next => cases hq
  next => cases hq

theorem begins_followed {c : Cmd} {r : Reply c} {q : Engine StageOutcome}
    (hq : (eventParts svc).begins c r = some (A, q)) (w : World) : A.Followed svc q w := by
  simp only [eventParts] at hq
  split at hq
  next =>
    obtain ⟨plugin, -, hq⟩ := Option.bind_eq_some_iff.mp hq
    exact applying_followed hq w
  next => cases hq

theorem Application.Followed.next {q : Engine StageOutcome}
    {a : Choice Handler Oracle Disturbance} (h : A.Followed svc q x.world)
    (hy : (engine svc weather).next a x = some y) (hprov : Provenance y.world.store) :
    A.Followed svc q y.world := by
  obtain ⟨aim, hwp, haim⟩ := h
  exact ⟨aim, hwp, fun m hm => (haim m hm).next hy hprov⟩

/-- A command that stands, with its reply, leaves the rest of an application followed. -/
theorem Application.Followed.turn {a : Choice Handler Oracle Disturbance} {o : Oracle} {c : Cmd}
    {k : Reply c → Engine StageOutcome} {r : Reply c}
    (h : A.Followed svc (.step c k) x.world) (hprov : Provenance x.world.store)
    (hqueues : x.world.store.QueuesNamed) (hstands : ∀ b, c = .redis b → A.Stands svc b x.world)
    (hr : respond o c x.world = some (r, w')) (hy : (engine svc weather).next a x = some y)
    (hprov' : Provenance y.world.store) : (A.tell c).Followed svc (k r) y.world := by
  obtain ⟨aim, hwp, haim⟩ := h
  have htell : ∀ m, A.Cleared x.world m → (A.tell c).Cleared y.world m := by
    intro m hm
    have hm := hm.next hy hprov'
    unfold Application.tell
    split
    · exact hm
    · exact hm
  refine ⟨fun m => aim m ∨ A.Aims svc c r m, hwp.2 r _ rfl, fun m hm => htell m ?_⟩
  rcases hm with hm | hm
  · exact haim m hm
  · exact hm.cleared hprov hqueues hstands hr

theorem eventRun_inPart
    {ok : Process → (Nat → EventPart) → Choice Handler Oracle Disturbance → Prop}
    (hx : EventRun svc weather ok x parts) :
    ∀ (i : Nat) t, x.threads[i]? = some t → System.InPart (eventParts svc) parts i t :=
  System.Recorded.inPart rfl handlerProgram_inPart hx

theorem eventRun_named {ok : Process → (Nat → EventPart) → Choice Handler Oracle Disturbance → Prop}
    (hx : EventRun svc weather ok x parts) : x.world.store.QueuesNamed := by
  refine hx.reachable.invariant (I := fun x => x.world.store.QueuesNamed) ?_ ?_
  · exact fun z q hz => absurd hz SortedSet.not_mem_empty
  · exact fun x y a hI _ hy => queuesNamed_next hI hy

/-- In every run whose steps stand, the applications under way are followed. -/
theorem eventRun_followed (hx : EventRun svc weather (ApplicationStands svc) x parts) :
    ∀ (i : Nat) A q, parts i = some (A, q) → A.Followed svc q x.world := by
  induction hx with
  | init => exact fun i A q h => nomatch h
  | @step x y parts a hx ha hy ih =>
    have hprov := (reached_commissioned hx.reachable).provenance
    have hprov' := ((reached_commissioned hx.reachable).next hy).provenance
    intro j A q hj
    rcases System.noteParts_cases (eventRun_inPart hx) hy hj with hj | ⟨h, hj⟩ | ⟨c, r, hj⟩ |
      ⟨o, t, c, k, r, w, rfl, hpart, hr, he⟩
    · exact (ih j A q hj).next hy hprov'
    · exact ingressPart_followed hj _
    · exact begins_followed hj _
    · cases he
      refine (ih j t _ hpart).turn hprov (eventRun_named hx) ?_ (engine_respond hr) hy hprov'
      rintro b rfl
      exact ha j o t _ b rfl hpart rfl

/-- A move leaves all other messages alone, and its own when that is not there to be moved. -/
theorem move_leavesAlone {a : MoveArgs} {o : Oracle}
    {r : Reply (.redis (.moveMessageBetweenQueues a))}
    (hm : m = a.messageId → m ∉ w.store.redis.queues a.sourceQueue)
    (hr : respond o (.redis (.moveMessageBetweenQueues a)) w = some (r, w')) :
    w.store.LeftAlone w'.store m := by
  by_cases hid : m = a.messageId
  · rcases respond_store hr with hs | ⟨c, hc, -, hs⟩ <;> rw [hs]
    · exact .refl
    · cases hc
      have hsame : (moveMessageBetweenQueues a w.store.redis).2 = w.store.redis := by
        rcases move_cases a w.store.redis with ⟨-, he⟩ | ⟨hin, -⟩ | ⟨hin, -⟩ | ⟨hin, -⟩
        · rw [he]
        · exact absurd hin (hid ▸ hm hid)
        · exact absurd hin (hid ▸ hm hid)
        · exact absurd hin (hid ▸ hm hid)
      refine ⟨?_, fun q => ?_, rfl⟩
      · exact congrArg (fun r => r.messages m) hsame
      · exact congrArg (fun r => (r.queues q).score m) hsame
  · exact leavesAlone_beside (fun _ r => beside_move a r) (by simp) hid o w r w' hr

/-- A step of an application leaves alone what is not the event's business. -/
theorem application_step (hx : EventRun svc weather (ApplicationStands svc) x parts)
    {a : Choice Handler Oracle Disturbance} (ha : ApplicationStands svc x parts a)
    (hy : (engine svc weather).next a x = some y) {o : Oracle} {q : Engine StageOutcome} {c : Cmd}
    (hturn : a = .turn i o) (hpart : parts i = some (A, q)) (hq : q.pending = some c) :
    (∃ h, x.waiting i = some (h, c)) ∧
      ∀ m, A.OffLimits x.world m → x.world.store.LeftAlone y.world.store m := by
  subst hturn
  obtain ⟨h, b, k, r, w, ht, hr, hw, -⟩ := System.waiting_turn hy
  obtain ⟨k', rfl⟩ : ∃ k', q = .step c k' := by
    cases q with
    | step c' k' =>
      cases hq
      exact ⟨k', rfl⟩
    | pure a => cases hq
    | fail e => cases hq
  obtain rfl : c = b := (eventRun_inPart hx i _ ht).1 A c k' hpart
  refine ⟨⟨h, by simp [Config.waiting, ht, Prog.pending]⟩, fun m hm => ?_⟩
  obtain ⟨aim, hwp, haim⟩ := eventRun_followed hx i A _ hpart
  have hr := engine_respond hr
  rw [hw]
  rcases hwp.1 with hmove | hleaves
  · unfold Cmd.isMove at hmove
    split at hmove
    next args =>
      refine move_leavesAlone (fun hid hin => ?_) hr
      have hstands := ha i o A _ _ rfl hpart rfl
      subst hid
      exact hstands hin hm
    next => cases hmove
  · exact hleaves m (fun h => (haim m h).2 hm) o x.world r w hr

end DeviceMessaging
