import DeviceMessaging.CalmDrain

namespace DeviceMessaging

open Effect

variable {svc : Service} {settled : DeliveryPattern → Prop} {ledger : List Issued}
  {polls : PollRule} {w w' : World} {m : MessageId} {a : Attempt} {plugin : DeliveryPlugin}
  {h : MessageHash} {message : DeviceMessage} {q : QueueKey}

theorem deadMembers_calm (members : List MessageId) {Q : List MessageId → World → Prop}
    {E : String → World → Prop} (hQ : ∀ dead, Q dead w) :
    (deadMembers members).wp (calm polls) Q E w := by
  induction members generalizing Q with
  | nil => exact hQ []
  | cons id rest ih =>
    unfold deadMembers
    rw [Prog.wp_bind, Prog.wp_tryCatch, wp_redis_plain rfl]
    have hrest : (deadMembers rest >>= fun dead => pure
        (if (w.store.redis.messages id).isSome then dead else id :: dead) : Engine _).wp
          (calm polls) Q E w := by
      rw [Prog.wp_bind]
      exact ih fun dead => hQ _
    exact hrest

theorem validateAndClean_calm (ledger : List Issued) (key : AdmissionNode) :
    (validateAndCleanConcurrencyRateLimit key).wp (calm polls)
      (fun _ w' => ∀ x, Uninvolved ledger x w w') NoThrow w := by
  unfold validateAndCleanConcurrencyRateLimit
  rw [Prog.wp_bind, wp_redis_plain rfl]
  have hclean : (deadMembers (w.store.redis.rateLimits key).members >>= fun dead =>
      if dead = [] then pure (w.store.redis.rateLimits key).members.length
      else do
        redis (.sremRateLimit key dead)
        return (w.store.redis.rateLimits key).members.length - dead.length : Engine Nat).wp
          (calm polls) (fun _ w' => ∀ x, Uninvolved ledger x w w') NoThrow w := by
    rw [Prog.wp_bind]
    refine deadMembers_calm _ fun dead => ?_
    split
    next => exact fun x => .refl
    next =>
      rw [Prog.wp_bind, wp_redis_plain rfl]
      exact fun x => .after (spared_validateAndClean key dead) nofun fun _ _ he => nomatch he
  exact hclean

theorem canAdmit_calm (ledger : List Issued) :
    (canAdmit plugin q).wp (calm polls) (fun _ w' => ∀ x, Uninvolved ledger x w w') NoThrow w := by
  unfold canAdmit
  split
  next minIntervalMs _ =>
    rw [wp_redis_plain rfl]
    exact fun x => .after (spared_lock q minIntervalMs) nofun fun _ _ he => nomatch he
  next maxInFlight _ =>
    split
    next => exact fun x => .refl
    next key _ =>
      rw [Prog.wp_bind, wp_redis_plain rfl]
      have hcount : ∀ tracked : Nat, (if maxInFlight ≤ tracked then do
            let liveCount ← validateAndCleanConcurrencyRateLimit key
            return decide (liveCount < maxInFlight)
          else return true : Engine Bool).wp (calm polls)
            (fun _ w' => ∀ x, Uninvolved ledger x w w') NoThrow w := by
        intro tracked
        split
        next =>
          rw [Prog.wp_bind]
          exact validateAndClean_calm ledger key
        next => exact fun x => .refl
      exact hcount _

/-- Only a queued message waits in a ready queue, and in that of its plugin. -/
theorem queued_of_ready {node : AdmissionNode} (hs : a.station = some (.ready node)) :
    a.status = .QUEUED ∧ node.pluginId = a.plugin.id := by
  unfold Attempt.station stationKey at hs
  split at hs
  next hq =>
    refine ⟨hq, ?_⟩
    cases hs
    rfl
  next =>
    obtain ⟨stage, -, hk⟩ := Option.map_eq_some_iff.mp hs
    cases stage <;> cases hk

/-- A message picked into `ns`, as the pick returns it. -/
structure Picked (svc : Service) (settled : DeliveryPattern → Prop) (ledger : List Issued)
    (w : World) (node : AdmissionNode) (message : DeviceMessage) (w' : World) (a : Attempt) : Prop
    where
  pluginId : node.pluginId = a.plugin.id
  status : a.status = .SENT_TO_NS
  loads : ∃ h, Loaded message.id h a message
  owned : svc.registry.delivery a.plugin.id = some a.plugin
  stands : StandsAt svc settled ledger w' message.id a
  idle : w'.outstanding message.id = []
  only : Only ledger message.id w w'

/-- The world after a pick that found the message at the head of its source. -/
def World.pick (w : World) (args : FetchArgs) (t : ℚ) (m : MessageId)
    (rest : SortedSet ℚ MessageId) : World :=
  { w with store := { w.store with
    redis := pickClaimed args t m (popSource args rest w.store.redis) } }

theorem picked_of_queued {args : FetchArgs} {node : AdmissionNode} {t : ℚ}
    {rest : SortedSet ℚ MessageId} (hh : w.store.redis.messages m = some h)
    (hst : Standing svc h a) (hp : Places settled ledger w m h a)
    (hpop : (w.store.redis.queues args.sourceQueue).popMin = some (m, rest))
    (hsource : args.sourceQueue = .ready node) (hdest : args.destinationQueue = .ns)
    (hstatus : args.newStatus = .SENT_TO_NS) :
    (w.pick args t m rest).store.redis.messages m = some (pickedHash args h) ∧
      ∃ message, deserializeMessage m (pickedHash args h) = .ok message ∧
        Picked svc settled ledger w node message (w.pick args t m rest) (a.moved .SENT_TO_NS) := by
  have hq : m ∈ w.store.redis.queues args.sourceQueue := (SortedSet.mem_popMin hpop).mpr (.inl rfl)
  obtain ⟨hqueued, hnode⟩ := queued_of_ready (hsource ▸ hp.queues _ hq)
  have hh' : (popSource args rest w.store.redis).messages m = some h :=
    (congrFun popSource_messages m).trans hh
  have hmsgs : (w.pick args t m rest).store.redis.messages m = some (pickedHash args h) :=
    (congrFun (pickClaimed_messages hh') m).trans (Function.update_self ..)
  have hstand := hst.picked hstatus
  obtain ⟨message, hm, hl⟩ := hstand.load m
  have hid : message.id = m := hl.id
  refine ⟨hmsgs, message, hm, hnode, rfl, ⟨_, hid.symm ▸ hl⟩, hst.plugin_id ▸ hst.owned, ?_, ?_, ?_⟩
  · rw [hid]
    exact ⟨_, hmsgs, hstand, hp.picked hst hqueued hpop hdest⟩
  · rw [hid]
    exact hp.no_send (by rw [hqueued]; decide)
  · rw [hid]
    intro x hx
    have hs : Spared ledger x w.store.redis (w.pick args t m rest).store.redis :=
      (spared_popSource hpop hx).trans (spared_pickClaimed hh' hx)
    exact ⟨⟨hs, rfl, rfl, fun hx => hx, fun hx => hx⟩, rfl⟩

theorem fetch_calm {args : FetchArgs} {node : AdmissionNode} {t : ℚ}
    (hS : Sound svc settled ledger w) (hsource : args.sourceQueue = .ready node)
    (hdest : args.destinationQueue = .ns) (hstatus : args.newStatus = .SENT_TO_NS)
    (ht : args.timeoutAt = some t) :
    (redis (.fetchNextMessageInQueueAndMove args) >>= readPicked).wp (calm polls)
      (fun picked w' => (picked = none ∧ ∀ x, Uninvolved ledger x w w') ∨
        ∃ message a, picked = some message ∧ Picked svc settled ledger w node message w' a)
      NoThrow w := by
  rw [Prog.wp_bind, wp_redis_plain rfl]
  have hrun : ∀ v r, fetchNextMessageInQueueAndMove args w.store.redis = (v, r) →
      (w.store.exec (.fetchNextMessageInQueueAndMove args) "").1 = v ∧
        w.after (.fetchNextMessageInQueueAndMove args) "" =
          { w with store := { w.store with redis := r } } := by
    intro v r he
    simp only [World.after, Store.exec, RedisCmd.run, he]
    exact ⟨trivial, rfl⟩
  rcases fetch_cases args w.store.redis with he | he | ⟨m, rest, hpop, he⟩
  · rw [(hrun _ _ he).1, (hrun _ _ he).2]
    exact .inl ⟨rfl, fun x => .refl⟩
  · rw [(hrun _ _ he).1, (hrun _ _ he).2]
    refine .inl ⟨rfl, fun x => ⟨⟨?_, rfl, rfl, fun hx => hx, fun hx => hx⟩, rfl⟩⟩
    exact ⟨rfl, fun _ => Iff.rfl, fun _ h => h, fun _ h => h, fun _ h => h, fun _ _ h => h⟩
  · rcases hS m with hn | ⟨a, h, hh, hst, hp⟩
    · exact absurd ((SortedSet.mem_popMin hpop).mpr (.inl rfl)) (hn.queues _)
    rcases he with ⟨hm, -⟩ | ⟨ht', -⟩ | ⟨-, t', -, -, he⟩
    · cases hm.symm.trans hh
    · cases ht'.symm.trans ht
    obtain ⟨hmsgs, message, hm, hpicked⟩ := picked_of_queued (t := t') hh hst hp hpop hsource hdest
      hstatus
    have hmsgs : (pickClaimed args t' m (popSource args rest w.store.redis)).messages m =
        some (pickedHash args h) := hmsgs
    rw [(hrun _ _ he).1, (hrun _ _ he).2, hmsgs]
    have hread : (readPicked (some (m, pickedHash args h)) : Engine _) = pure (some message) := by
      simp only [readPicked, hm]
    simp only [Option.map_some, Prog.Ends, hread, Prog.wp_pure]
    exact .inr ⟨message, _, rfl, hpicked⟩

theorem pickIntoNs_calm {node : AdmissionNode} {limit : Option ConcurrencyRateLimit}
    (hS : Sound svc settled ledger w) :
    (pickIntoNs svc (.ready node) plugin limit).wp (calm polls)
      (fun picked w' => (picked = none ∧ ∀ x, Uninvolved ledger x w w') ∨
        ∃ message a, picked = some message ∧ Picked svc settled ledger w node message w' a)
      NoThrow w := by
  unfold pickIntoNs
  rw [Prog.wp_bind, wp_dateNow]
  intro now
  rw [Prog.wp_bind]
  exact entryWait_calm (by decide) fun ms => fetch_calm hS rfl rfl rfl rfl

theorem mem_outstanding_track {p : PluginId} {x : MessageId} :
    (w.track p message).outstanding x =
      w.outstanding x ++ if message.id = x then [.send p message w.nextToken] else [] := by
  unfold World.outstanding World.track
  rw [List.filter_append]
  by_cases hx : message.id = x <;> simp [Task.sends, hx]

/-- The send of a message that was just picked is tracked under its plugin. -/
theorem Sound.track (hS : Sound svc settled ledger w) (hs : StandsAt svc settled ledger w message.id a)
    (hst : a.status = .SENT_TO_NS) (hidle : w.outstanding message.id = [])
    (hcount : message.retryCount = some a.count) :
    Sound svc settled ledger (w.track a.plugin.id message) := by
  refine hS.change (m := message.id) (fun x hx => ?_) (.inr ⟨a, ?_⟩)
  · have hout : (w.track a.plugin.id message).outstanding x = w.outstanding x := by
      rw [mem_outstanding_track, if_neg (Ne.symm hx), List.append_nil]
    have hheld : (w.track a.plugin.id message).inFlightSends x = w.inFlightSends x :=
      Function.update_of_ne hx _ _
    exact ⟨⟨.refl, hout, congrArg Option.isSome hheld, fun h => h, fun h => h⟩, rfl⟩
  · obtain ⟨h, hh, hstand, hp⟩ := hs
    have hout : (w.track a.plugin.id message).outstanding message.id =
        [.send a.plugin.id message w.nextToken] := by
      rw [mem_outstanding_track, if_pos rfl, hidle, List.nil_append]
    have hheld : (w.track a.plugin.id message).inFlightSends message.id = some w.nextToken :=
      Function.update_self ..
    refine ⟨h, hh, hstand, { hp with once := ?_, sends := fun t ht => ?_ }⟩
    · rw [hout, List.length_singleton]
    · rw [hout, List.mem_singleton] at ht
      exact ⟨hst, by rw [hheld]; rfl, message, _, ht, hcount⟩

theorem distributeWith_calm {node : AdmissionNode} (hS : Sound svc settled ledger w)
    (hp : svc.registry.delivery node.pluginId = some plugin) :
    (distributeWith svc plugin (.ready node)).wp (calm polls)
      (fun _ => Sound svc settled ledger) NoThrow w := by
  unfold distributeWith
  rw [Prog.wp_bind]
  refine Prog.wp_mono (canAdmit_calm ledger) (fun admitted w₁ hw₁ => ?_) fun _ _ h => h
  have hS₁ := hS.untouched fun x => (hw₁ x).toUntouched
  split
  next =>
    rw [Prog.wp_bind]
    refine Prog.wp_mono (pickIntoNs_calm hS₁) (fun picked w₂ hw₂ => ?_) fun _ _ h => h
    rcases hw₂ with ⟨rfl, hw₂⟩ | ⟨message, a, rfl, hpick⟩
    · exact hS₁.untouched fun x => (hw₂ x).toUntouched
    · have hS₂ := hS₁.of_standing hpick.only hpick.stands
      obtain ⟨h, hl⟩ := hpick.loads
      have hid : plugin.id = a.plugin.id := (PluginRegistry.delivery_id hp).trans hpick.pluginId
      have hsend : ∀ w₃, (∀ x, Untouched ledger x w₂ w₃) →
          (Prog.command (Cmd.trackSend plugin.id message) : Engine Unit).wp (calm polls)
            (fun _ => Sound svc settled ledger) NoThrow w₃ := by
        intro w₃ hw₃
        rw [wp_trackSend, hid]
        have hs := hpick.stands.untouched (hw₃ message.id)
        have hidle := (hw₃ message.id).outstanding.trans hpick.idle
        exact (hS₂.untouched hw₃).track hs hpick.status hidle hl.count
      simp only [Prog.wp_bind]
      unfold emitFirstSend
      split
      next =>
        refine Prog.wp_mono (emit_calm ledger _) (fun _ w₃ hw₃ => ?_) fun _ _ h => h
        exact hsend w₃ hw₃.1
      next => exact hsend w₂ fun _ => .refl
  next => exact hS₁

theorem distributeQueue_calm (hS : Sound svc settled ledger w) (q : QueueKey) :
    (distributeQueue svc q).wp (calm polls) (fun _ => Sound svc settled ledger) NoThrow w := by
  unfold distributeQueue
  split
  next => exact hS
  next plugin hp =>
    obtain ⟨id, hid, hp⟩ := Option.bind_eq_some_iff.mp hp
    obtain ⟨node, rfl, rfl⟩ := ready_of_pluginId hid
    exact distributeWith_calm hS hp

/-- An id a vendor's answer carries is one it gave to this attempt. -/
def GivenTo (ledger : List Issued) (pluginId : PluginId) (message : DeviceMessage)
    (answer : Except VendorError String) : Prop :=
  match answer with
  | .ok x => x = "" ∨ ⟨x, pluginId, message.id, message.retryCount⟩ ∈ ledger
  | .error _ => True

instance (pluginId : PluginId) (answer : Except VendorError String) :
    Decidable (GivenTo ledger pluginId message answer) :=
  match answer with
  | .ok _ => inferInstanceAs (Decidable (_ ∨ _))
  | .error _ => .isTrue trivial

/-- The world as a send is taken up again. -/
def World.answered (w : World) (t : Task) : World :=
  { w with tasks := w.tasks.erase t }

theorem mem_outstanding {t : Task} : t ∈ w.outstanding m ↔ t ∈ w.tasks ∧ t.sends = some m := by
  simp [World.outstanding]

theorem outstanding_answered (w : World) (t : Task) :
    (w.answered t).outstanding m = (w.outstanding m).erase t :=
  List.erase_filter.symm

theorem idle_answered {t : Task} (ht : t ∈ w.outstanding m)
    (honce : (w.outstanding m).length ≤ 1) : (w.answered t).outstanding m = [] := by
  have hlen : ((w.answered t).outstanding m).length = (w.outstanding m).length - 1 := by
    rw [outstanding_answered, List.length_erase_of_mem ht]
  exact List.length_eq_zero_iff.mp (by omega)

theorem outstanding_answered_other {t : Task} (ht : t.sends = some m) {x : MessageId}
    (hx : x ≠ m) : (w.answered t).outstanding x = w.outstanding x := by
  rw [outstanding_answered, List.erase_of_not_mem]
  intro hm
  exact hx (Option.some.inj ((mem_outstanding.mp hm).2.symm.trans ht))

theorem Only.answered {t : Task} (ht : t.sends = some m) : Only ledger m w (w.answered t) :=
  fun _ hx => ⟨⟨.refl, outstanding_answered_other ht hx, rfl, fun h => h, fun h => h⟩, rfl⟩

/-- A message whose send is outstanding is on the attempt it is about. -/
theorem Sound.sending {t : Task} (hS : Sound svc settled ledger w) (ht : t ∈ w.outstanding m) :
    ∃ a, StandsAt svc settled ledger w m a ∧ a.status = .SENT_TO_NS ∧
      StandsAt svc settled ledger (w.answered t) m a ∧ (w.answered t).outstanding m = [] ∧
      ∃ message token, t = .send a.plugin.id message token ∧ message.id = m ∧
        message.retryCount = some a.count := by
  rcases hS m with hn | ⟨a, h, hh, hst, hp⟩
  · rw [hn.idle] at ht
    exact absurd ht List.not_mem_nil
  obtain ⟨hs, -, message, token, rfl, hcount⟩ := hp.sends t ht
  have hidle := idle_answered ht hp.once
  have hid : message.id = m := Option.some.inj (mem_outstanding.mp ht).2
  refine ⟨a, ⟨h, hh, hst, hp⟩, hs, ⟨h, hh, hst, ?_⟩, hidle, message, token, rfl, hid, hcount⟩
  refine { hp with once := by rw [hidle]; decide, sends := fun t ht => ?_ }
  rw [hidle] at ht
  exact absurd ht List.not_mem_nil

theorem afterSendOne_calm {answer : Except VendorError String} (hS : Sound svc settled ledger w)
    (hs : StandsAt svc settled ledger w m a) (hst : a.status = .SENT_TO_NS)
    (hidle : w.outstanding m = []) (hid : message.id = m)
    (hcount : message.retryCount = some a.count)
    (hgiven : GivenTo ledger a.plugin.id message answer) :
    (afterSendOne svc a.plugin message answer).wp (calm polls)
      (fun _ w' => Sound svc settled ledger w' ∧ w'.outstanding m = []) NoThrow w := by
  have hfail : ∀ context, (retryOrFail svc m .ns context a.plugin).wp (calm polls)
      (fun _ w' => Sound svc settled ledger w' ∧ w'.outstanding m = []) NoThrow w := by
    intro context
    refine Prog.wp_mono (retryOrFail_calm hs hidle fun _ => rfl) (fun out w' hf => ?_) fun _ _ h => h
    refine ⟨hf.sound hS, ?_⟩
    cases hf with
    | removed _ hg => exact hg.idle
    | retried _ _ hs' =>
      obtain ⟨h, -, -, hp⟩ := hs'
      exact hp.no_send nofun
    | absent => exact hidle
  unfold afterSendOne
  split
  next err =>
    rw [Prog.wp_bind, hid]
    exact hfail _
  next x =>
    split
    next =>
      rw [Prog.wp_bind, hid]
      exact hfail _
    next hx =>
      have hl : ⟨x, a.plugin.id, m, some a.count⟩ ∈ ledger := by
        have hl := Or.resolve_left hgiven hx
        rwa [hid, hcount] at hl
      rw [Prog.wp_bind, hid]
      refine Prog.wp_mono (advance_sent_calm hs hst hidle hx hl) (fun moved w' hw' => ?_)
        fun _ _ h => h
      rcases hw' with ⟨-, ho, hs'⟩ | ⟨-, -, -, ho⟩
      · refine ⟨hS.of_standing ho hs', ?_⟩
        obtain ⟨h, -, -, hp⟩ := hs'
        exact hp.no_send nofun
      · exact ⟨hS.untouched fun x => (ho x).toUntouched, (ho m).outstanding.trans hidle⟩

/-- Letting go of a message breaks no account when no send of it is outstanding. -/
theorem Sound.settle (hS : Sound svc settled ledger w) (hidle : w.outstanding m = [])
    (token : Nat) : Sound svc settled ledger (w.settle m token) := by
  unfold World.settle
  split
  next =>
    refine hS.change (m := m) (fun x hx => ?_) ?_
    · have hheld : Function.update w.inFlightSends m none x = w.inFlightSends x :=
        Function.update_of_ne hx _ _
      exact ⟨⟨.refl, rfl, congrArg Option.isSome hheld, fun h => h, fun h => h⟩, rfl⟩
    · rcases hS m with hn | ⟨a, h, hh, hst, hp⟩
      · exact .inl ⟨hn.toNoReference, hn.idle, hn.named⟩
      · refine .inr ⟨a, h, hh, hst, { hp with sends := fun t ht => ?_ }⟩
        have ht : t ∈ w.outstanding m := ht
        rw [hidle] at ht
        exact absurd ht List.not_mem_nil
  next => exact hS

/-- The answer to an outstanding send, handled to its end. -/
theorem settleSend_calm {t : Task} {token : Nat} {pluginId : PluginId}
    {answer : Except VendorError String} (hS : Sound svc settled ledger w)
    (ht : t ∈ w.tasks) (he : t = .send pluginId message token)
    (hp : svc.registry.delivery pluginId = some plugin)
    (hgiven : GivenTo ledger pluginId message answer) :
    (settleSend svc plugin message token answer).wp (calm polls)
      (fun _ => Sound svc settled ledger) NoThrow (w.answered t) := by
  have hsends : t.sends = some message.id := by rw [he]; rfl
  obtain ⟨a, -, hst, hs, hidle, message', token', he', hid, hcount⟩ :=
    hS.sending (mem_outstanding.mpr ⟨ht, hsends⟩)
  obtain ⟨rfl, rfl, rfl⟩ : pluginId = a.plugin.id ∧ message = message' ∧ token = token' := by
    have he := he.symm.trans he'
    simpa using he
  obtain ⟨h, hh, hstand, hpl⟩ := hs
  have hplugin : plugin = a.plugin := by
    have ho := hstand.owned
    rw [hstand.plugin_id, hp] at ho
    exact Option.some.inj ho
  have hS₁ : Sound svc settled ledger (w.answered t) :=
    hS.of_standing (.answered hsends) ⟨h, hh, hstand, hpl⟩
  unfold settleSend
  rw [Prog.wp_bind, Prog.wp_tryCatch, hplugin]
  refine Prog.wp_mono (afterSendOne_calm hS₁ ⟨h, hh, hstand, hpl⟩ hst hidle rfl hcount hgiven)
    (fun _ w₂ hw₂ => ?_) fun _ _ h => h.elim
  rw [wp_settleSend]
  exact hw₂.1.settle hw₂.2 token

end DeviceMessaging
