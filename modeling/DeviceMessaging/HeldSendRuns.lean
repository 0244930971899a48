import DeviceMessaging.HeldSends

namespace DeviceMessaging

open Effect

variable {svc : Service} {x y : Process} {ledger : WorkLedger} {h : Handler}
  {a : Choice Handler Oracle Disturbance} {id : MessageId} {i : Nat} {o : Oracle} {c : Cmd}
  {w : World}

/-- What a turn does to the holders. -/
inductive HolderTurn (ledger : WorkLedger) (slot token : Nat) (c : Cmd) (after : Work) :
    (MessageId → Option Holder) → Prop
  | tracked {p : PluginId} {message : DeviceMessage} (hc : c = .trackSend p message) :
    HolderTurn ledger slot token c after
      (Function.update ledger.holder message.id (some (.tracked token)))
  | picked {args : FetchArgs} {id : MessageId}
    (hc : c = .redis (.fetchNextMessageInQueueAndMove args)) (ha : after = .picked id) :
    HolderTurn ledger slot token c after (Function.update ledger.holder id (some (.window slot)))
  | released {id : MessageId} (hg : ledger.work slot = .sending id) (ha : after ≠ .sending id) :
    HolderTurn ledger slot token c after (Function.update ledger.holder id none)
  | kept (htrack : ∀ p message, c ≠ .trackSend p message)
    (hpick : ∀ args id, c = .redis (.fetchNextMessageInQueueAndMove args) → after ≠ .picked id)
    (hsend : ∀ id, ledger.work slot = .sending id → after = .sending id) :
    HolderTurn ledger slot token c after ledger.holder

theorem holderTurn_hold (ledger : WorkLedger) (slot token : Nat) (c : Cmd) (after : Work) :
    HolderTurn ledger slot token c after
      (ledger.hold slot token c (ledger.work slot) after) := by
  generalize hg : ledger.work slot = before
  unfold WorkLedger.hold
  split
  next => exact .tracked rfl
  next => exact .picked rfl rfl
  next id htrack hpick =>
    split
    next ha =>
      refine .kept htrack hpick fun id' he => ?_
      cases hg.symm.trans he
      exact ha
    next ha => exact .released hg ha
  next htrack hsend hpick =>
    exact .kept htrack hpick fun id' he => absurd (hg.symm.trans he) (hsend id')

section Turn

variable {r : Reply c}

/-- A pass registers the send of what it picked. -/
theorem HeldRun.window (hx : HeldRun svc x ledger) {p : PluginId} {message : DeviceMessage}
    (hw : x.waiting i = some (h, .trackSend p message)) :
    ledger.holder message.id = some (.window i) :=
  hx.windows i h _ message.id hw (hx.watched.allows hw)

/-- A pick hands over the first member of a ready queue, a message that is not held. -/
theorem HeldRun.picks (hx : HeldRun svc x ledger) {args : FetchArgs}
    {r : Reply (.redis (.fetchNextMessageInQueueAndMove args))}
    (hw : x.waiting i = some (h, .redis (.fetchNextMessageInQueueAndMove args)))
    (ho : o.fault = none)
    (hr : respond o (.redis (.fetchNextMessageInQueueAndMove args)) x.world = some (r, w))
    (ha : (ledger.work i).after svc h _ r = .picked id) :
    ledger.holder id = none ∧
      (∃ rest, (x.world.store.redis.queues args.sourceQueue).popMin = some (id, rest)) ∧
      ∃ hash message, r = .ok (some (id, hash)) ∧ readsAs id (some hash) = some message := by
  obtain ⟨⟨node, hnode⟩, -, hfree⟩ := hx.watched.allows hw
  have hturn := workTurn_after svc h (ledger.work i) _ r
  rw [hfree] at ha hturn
  generalize Work.free.after svc h _ r = g' at ha hturn
  cases hturn with
  | same => cases ha
  | free => cases ha
  | @picked _ m hash message hread =>
    cases ha
    obtain ⟨-, hv, -⟩ := respond_calm ho hr
    obtain ⟨⟨rest, hpop⟩, -⟩ := fetch_reply_moved hv.symm
    refine ⟨?_, ⟨rest, hpop⟩, hash, message, rfl, hread⟩
    by_contra hheld
    have hsource := (hx.held id hheld).only _ ((SortedSet.mem_popMin hpop).mpr (.inl rfl))
    rw [hnode] at hsource
    cases hsource

/-- A held message stays where it is until its send is done with it. -/
theorem HeldRun.stays (hx : HeldRun svc x ledger) (hw : x.waiting i = some (h, c))
    (ho : o.fault = none) (hr : respond o c x.world = some (r, w))
    (hheld : ledger.holder id ≠ none)
    (hsend : ledger.work i = .sending id → (ledger.work i).after svc h c r = .sending id) :
    id ∈ w.store.redis.queues .ns ∧ (∀ q, id ∈ w.store.redis.queues q → q = .ns) ∧
      w.store.redis.messages id = x.world.store.redis.messages id := by
  have hh := hx.held id hheld
  by_cases hredis : ∃ c', c = .redis c'
  · obtain ⟨c, rfl⟩ := hredis
    obtain ⟨hf, -, rfl⟩ := respond_calm ho hr
    refine hx.spared hw hheld (fun ht => ?_) hf
    have hg := hx.takenOut hw hheld ht
    have hallows := hx.watched.allows hw
    have hafter := hsend hg
    rw [hg] at hallows hafter
    rw [after_takenOut ht hallows] at hafter
    cases hafter
  · have hstore : w.store = x.world.store := by
      rcases respond_store hr with he | ⟨c', hc, -, -⟩
      · exact he
      · exact absurd ⟨c', hc⟩ hredis
    rw [hstore]
    exact ⟨hh.inNs, hh.only, rfl⟩

end Turn

/-- A picked message reads as a message of a delivery plugin. -/
theorem HeldRun.picked_reads (hx : HeldRun svc x ledger) {args : FetchArgs} {hash : MessageHash}
    {message : DeviceMessage}
    (hw : x.waiting i = some (h, .redis (.fetchNextMessageInQueueAndMove args)))
    (hf : (RedisCmd.fetchNextMessageInQueueAndMove args).Fresh o.id x.world.store)
    (hv : (fetchNextMessageInQueueAndMove args x.world.store.redis).1 = .ok (some (id, hash)))
    (hread : readsAs id (some hash) = some message) : (owner svc message).isSome := by
  obtain ⟨hprov, hcounted⟩ := hx.commissioned.exec hw hf
  have hknown : KnownHash x.world.store.enqueued id hash :=
    hprov.known hcounted (fetch_reply_stored hv)
  have hm : deserializeMessage id hash = .ok message := by
    unfold readsAs at hread
    cases hd : deserializeMessage id hash with
    | error e => simp [hd, Except.toOption] at hread
    | ok m =>
      simp only [Option.bind_some, hd, Except.toOption] at hread
      rw [Option.some.inj hread]
  obtain ⟨⟨dto, hdto, hof⟩, -⟩ := hknown.loads hm
  unfold owner
  rw [hof.pluginId]
  exact hx.homed _ hdto

/-- No handler gets an older view of a message when no turn makes it one. -/
theorem unseen_next {ledger' : WorkLedger} (hs : WorkStep svc x ledger a y ledger')
    (hold : ∀ j h c, x.waiting j = some (h, c) → ¬ (ledger.work j).Stale id)
    (hturn : ∀ j o h c (r : Reply c) w, a = .turn j o → x.waiting j = some (h, c) →
      o.fault = none → respond o c x.world = some (r, w) →
      ¬ ((ledger.work j).after svc h c r).Stale id) :
    ∀ j h c, y.waiting j = some (h, c) → ¬ (ledger'.work j).Stale id := by
  intro j h c hj
  rcases hs.waits hj with ⟨hw, he, -⟩ | ⟨w, rfl, -, he⟩ | ⟨o, b, r, w, rfl, hw, ho, hr, he⟩ <;>
    rw [he]
  · exact hold j h c hw
  · unfold Handler.work
    split <;> rintro (he | he | he) <;> cases he
  · exact hturn j o h b r w rfl hw ho hr

theorem HeldRun.held_next (hx : HeldRun svc x ledger) (hok : PicksAlone x ledger a)
    (hy : (engine svc {}).next a x = some y) :
    ∀ id, (noteWork svc x a ledger).holder id ≠ none →
      HeldInNs svc y (noteWork svc x a ledger) id := by
  have hs : WorkStep svc x ledger a y (noteWork svc x a ledger) := workStep_of_next hy
  generalize noteWork svc x a ledger = ledger' at hs ⊢
  intro id hheld'
  -- what was held before stays so, in the eyes of every handler
  have hunseen : ledger.holder id ≠ none →
      ∀ j h c, y.waiting j = some (h, c) → ¬ (ledger'.work j).Stale id := by
    intro hheld
    refine unseen_next hs (hx.held id hheld).unseen ?_
    rintro j o h c r w rfl hw ho hr
    exact hx.unseen hok hw ho hr hheld
  cases hs with
  | start h w hw =>
    have hh := hx.held id hheld'
    rcases startHandler_cases hw with ⟨t, -, -, rfl⟩ | ⟨-, rfl⟩ <;>
      exact ⟨hh.inNs, hh.only, hh.reads, hunseen hheld'⟩
  | elapse ms =>
    have hh := hx.held id hheld'
    exact ⟨hh.inNs, hh.only, hh.reads, hunseen hheld'⟩
  | @turn i o h c k r w ht ho hr =>
    have hw : x.waiting i = some (h, c) := Config.waiting_of_get ht
    have hstays : ledger.holder id ≠ none →
        (ledger.work i = .sending id → (ledger.work i).after svc h c r = .sending id) →
        HeldInNs svc ⟨x.threads.set i (h, k r), w⟩
          (ledger.reply svc i x.world.nextToken h c r) id := by
      intro hheld hsend
      obtain ⟨hns, honly, hhash⟩ := hx.stays hw ho hr hheld hsend
      refine ⟨hns, honly, ?_, hunseen hheld⟩
      rw [hhash]
      exact (hx.held id hheld).reads
    have hturn := holderTurn_hold ledger i x.world.nextToken c ((ledger.work i).after svc h c r)
    change ledger.hold i x.world.nextToken c (ledger.work i) _ id ≠ none at hheld'
    generalize ledger.hold i x.world.nextToken c (ledger.work i)
      ((ledger.work i).after svc h c r) = holder' at hturn hheld'
    cases hturn with
    | @tracked p message hc =>
      subst hc
      have hwork : ledger.work i = .picked message.id := hx.watched.allows hw
      refine hstays ?_ fun he => by rw [hwork] at he; cases he
      by_cases hid : id = message.id
      · rw [hid, hx.window hw]
        exact nofun
      · rwa [Function.update_of_ne hid] at hheld'
    | @picked args picked hc ha =>
      subst hc
      obtain ⟨-, -, hfree⟩ := hx.watched.allows hw
      obtain ⟨hnone, ⟨rest, hpop⟩, hash, message, rfl, hread⟩ := hx.picks hw ho hr ha
      by_cases hid : id = picked
      · subst hid
        obtain ⟨honly, hseen⟩ := hok.picked i o h args id rest rfl hw hpop
        obtain ⟨hf, hv, rfl⟩ := respond_calm ho hr
        obtain ⟨-, hqueues⟩ := fetch_reply_moved hv.symm
        obtain ⟨-, hns, -⟩ := hx.watched.allows hw
        refine ⟨(hqueues _).mpr (.inr hns.symm), fun q hq => ?_,
          ⟨message, ?_, hx.picked_reads hw hf hv.symm hread⟩, ?_⟩
        · rcases (hqueues q).mp hq with ⟨hq, hne⟩ | hq
          · exact absurd (honly q hq) hne
          · exact hq.trans hns
        · change readsAs id ((fetchNextMessageInQueueAndMove args _).2.messages id) = some message
          rw [fetch_reply_stored hv.symm]
          exact hread
        · have hstep : WorkStep svc x ledger (.turn i o) _ _ := .turn ht ho hr
          refine unseen_next hstep hseen ?_
          intro j o' h' c' r' w' he hw' _ hr'
          cases he
          rw [hw] at hw'
          cases hw'
          rw [hr] at hr'
          cases hr'
          rw [ha]
          rintro (he | he | he) <;> cases he
      · refine hstays ?_ fun he => by rw [hfree] at he; cases he
        rwa [Function.update_of_ne hid] at hheld'
    | @released sent hg ha =>
      by_cases hid : id = sent
      · rw [hid, Function.update_self] at hheld'
        exact absurd rfl hheld'
      · rw [Function.update_of_ne hid] at hheld'
        refine hstays hheld' fun he => ?_
        cases hg.symm.trans he
        exact absurd rfl hid
    | kept _ _ hsend => exact hstays hheld' (hsend id)

section Holders

variable {r : Reply c} {token : Nat}

/-- The holders after a turn of the slot. -/
abbrev holderAfter (svc : Service) (x : Process) (ledger : WorkLedger) (i : Nat) (h : Handler)
    (c : Cmd) (r : Reply c) : MessageId → Option Holder :=
  ledger.hold i x.world.nextToken c (ledger.work i) ((ledger.work i).after svc h c r)

/-- A holder is changed by its own slot only. -/
theorem HeldRun.holder_kept (hx : HeldRun svc x ledger) (hw : x.waiting i = some (h, c))
    (ho : o.fault = none) (hr : respond o c x.world = some (r, w)) {holder : Holder}
    (hid : ledger.holder id = some holder) (hwindow : holder ≠ .window i)
    (hsend : ledger.work i ≠ .sending id) :
    holderAfter svc x ledger i h c r id = some holder := by
  have hturn := holderTurn_hold ledger i x.world.nextToken c ((ledger.work i).after svc h c r)
  unfold holderAfter
  generalize ledger.hold i x.world.nextToken c (ledger.work i)
    ((ledger.work i).after svc h c r) = holder' at hturn ⊢
  have hne : ∀ {m : MessageId} {v : Option Holder}, id ≠ m →
      Function.update ledger.holder m v id = some holder := by
    intro m v hm
    rw [Function.update_of_ne hm]
    exact hid
  cases hturn with
  | @tracked p message hc =>
    subst hc
    refine hne ?_
    rintro rfl
    exact hwindow (Option.some.inj (hid.symm.trans (hx.window hw)))
  | @picked args m hc ha =>
    subst hc
    refine hne ?_
    rintro rfl
    cases hid.symm.trans (hx.picks hw ho hr ha).1
  | @released m hg _ =>
    refine hne ?_
    rintro rfl
    exact hsend hg
  | kept => exact hid

/-- Who holds a message as a send has registered it, or did before and is not done. -/
theorem HeldRun.tracked_before (hx : HeldRun svc x ledger) (hw : x.waiting i = some (h, c))
    (hid : holderAfter svc x ledger i h c r id = some (.tracked token)) :
    (∃ p message, c = .trackSend p message ∧ id = message.id ∧ token = x.world.nextToken) ∨
      (ledger.holder id = some (.tracked token) ∧
        (ledger.work i = .sending id → (ledger.work i).after svc h c r = .sending id)) := by
  have hturn := holderTurn_hold ledger i x.world.nextToken c ((ledger.work i).after svc h c r)
  unfold holderAfter at hid
  generalize ledger.hold i x.world.nextToken c (ledger.work i)
    ((ledger.work i).after svc h c r) = holder' at hturn hid
  cases hturn with
  | @tracked p message hc =>
    subst hc
    by_cases hm : id = message.id
    · subst hm
      rw [Function.update_self] at hid
      cases hid
      exact .inl ⟨p, message, rfl, rfl, rfl⟩
    · rw [Function.update_of_ne hm] at hid
      have hwork : ledger.work i = .picked message.id := hx.watched.allows hw
      exact .inr ⟨hid, fun he => by rw [hwork] at he; cases he⟩
  | @picked args m hc ha =>
    subst hc
    obtain ⟨-, -, hfree⟩ := hx.watched.allows hw
    by_cases hm : id = m
    · rw [hm, Function.update_self] at hid
      cases hid
    · rw [Function.update_of_ne hm] at hid
      exact .inr ⟨hid, fun he => by rw [hfree] at he; cases he⟩
  | @released m hg _ =>
    by_cases hm : id = m
    · rw [hm, Function.update_self] at hid
      cases hid
    · rw [Function.update_of_ne hm] at hid
      refine .inr ⟨hid, fun he => ?_⟩
      cases hg.symm.trans he
      exact absurd rfl hm
  | kept _ _ hsend => exact .inr ⟨hid, hsend id⟩

/-- Two handlers that have the send of one message in hand are one. -/
theorem HeldRun.one_sender (hx : HeldRun svc x ledger) {j : Nat} {h' : Handler} {c' : Cmd}
    (hi : x.waiting i = some (h, c)) (hj : x.waiting j = some (h', c'))
    (hgi : ledger.work i = .sending id) (hgj : ledger.work j = .sending id) : i = j := by
  obtain ⟨p, m, token, rfl, -, hid⟩ := hx.sending i h c id hi hgi
  obtain ⟨p', m', token', rfl, -, hid'⟩ := hx.sending j h' c' id hj hgj
  have htoken : token = token' := by
    cases hid.symm.trans hid'
    rfl
  obtain ⟨k, hti⟩ := Config.get_of_waiting hi
  obtain ⟨k', htj⟩ := Config.get_of_waiting hj
  exact hx.tokens.threads hti htj rfl (congrArg some htoken.symm)

end Holders

theorem picked_after {g : Work} {r : Reply c} (hg : g.after svc h c r = .picked id) :
    g = .picked id ∨ ∃ args, c = .redis (.fetchNextMessageInQueueAndMove args) := by
  have hturn := workTurn_after svc h g c r
  generalize g.after svc h c r = g' at hg hturn
  cases hturn with
  | same => exact .inl hg
  | @loaded m raw =>
    rcases load_cases svc h g m raw with he | he | he | he | he <;> rw [he] at hg
    · exact .inl hg
    all_goals cases hg
  | @picked args => exact .inr ⟨args, rfl⟩
  | _ => cases hg

theorem sending_after {g : Work} {r : Reply c} (hg : g.after svc h c r = .sending id) :
    g = .sending id := by
  have hturn := workTurn_after svc h g c r
  generalize g.after svc h c r = g' at hg hturn
  cases hturn with
  | same => exact hg
  | @loaded m raw =>
    rcases load_cases svc h g m raw with he | he | he | he | he <;> rw [he] at hg
    · exact hg
    all_goals cases hg
  | _ => cases hg

section Step

variable {ledger' : WorkLedger}

theorem HeldRun.windows_next (hx : HeldRun svc x ledger) (hs : WorkStep svc x ledger a y ledger') :
    ∀ j h c id, y.waiting j = some (h, c) → ledger'.work j = .picked id →
      ledger'.holder id = some (.window j) := by
  intro j h c id hj hg
  rcases hs.waits hj with ⟨hw, he, hne⟩ | ⟨w, rfl, -, he⟩ | ⟨o, b, r, w, rfl, hw, ho, hr, he⟩ <;>
    rw [he] at hg
  · have hid := hx.windows j h c id hw hg
    cases hs with
    | start => exact hid
    | elapse => exact hid
    | @turn i o h' b k r w ht ho hr =>
      have hwi := Config.waiting_of_get ht
      refine hx.holder_kept hwi ho hr hid ?_ fun hi => ?_
      · intro he
        cases he
        exact hne o rfl
      · obtain ⟨p, m, token, -, -, hid'⟩ := hx.sending i h' b id hwi hi
        cases hid.symm.trans hid'
  · unfold Handler.work at hg
    split at hg <;> cases hg
  · cases hs with
    | @turn _ _ h' b' k r' w' ht ho' hr' =>
      have hw' := Config.waiting_of_get ht
      rw [hw] at hw'
      cases hw'
      rw [hr] at hr'
      cases hr'
      have hturn := holderTurn_hold ledger j x.world.nextToken b ((ledger.work j).after svc h b r)
      change ledger.hold j x.world.nextToken b (ledger.work j) _ id = _
      generalize ledger.hold j x.world.nextToken b (ledger.work j)
        ((ledger.work j).after svc h b r) = holder' at hturn ⊢
      cases hturn with
      | tracked hc =>
        subst hc
        cases hg
      | picked hc ha =>
        cases ha.symm.trans hg
        exact Function.update_self _ _ _
      | @released m hsend ha =>
        rcases picked_after hg with he | ⟨args, rfl⟩
        · cases hsend.symm.trans he
        · cases hsend.symm.trans (hx.watched.allows hw).2.2
      | kept _ hpick _ =>
        rcases picked_after hg with he | ⟨args, rfl⟩
        · exact hx.windows j h b id hw he
        · exact absurd hg (hpick args id rfl)

theorem HeldRun.sending_next (hx : HeldRun svc x ledger) (hs : WorkStep svc x ledger a y ledger') :
    ∀ j h c id, y.waiting j = some (h, c) → ledger'.work j = .sending id →
      ∃ p m token, h = .task (.send p m token) ∧ m.id = id ∧
        ledger'.holder id = some (.tracked token) := by
  intro j h c id hj hg
  rcases hs.waits hj with ⟨hw, he, hne⟩ | ⟨w, rfl, hstart, he⟩ | ⟨o, b, r, w, rfl, hw, ho, hr, he⟩ <;>
    rw [he] at hg
  · obtain ⟨p, m, token, rfl, rfl, hid⟩ := hx.sending j h c id hw hg
    refine ⟨p, m, token, rfl, rfl, ?_⟩
    cases hs with
    | start => exact hid
    | elapse => exact hid
    | @turn i o h' b k r w ht ho hr =>
      have hwi := Config.waiting_of_get ht
      refine hx.holder_kept hwi ho hr hid nofun fun hi => ?_
      have hij := hx.one_sender hwi hw hi hg
      subst hij
      exact hne o rfl
  · rcases startHandler_cases hstart with ⟨t, hmem, rfl, -⟩ | ⟨hno, -⟩
    · cases t with
      | send p m token =>
        cases hg
        refine ⟨p, m, token, rfl, rfl, ?_⟩
        cases hs with
        | start => exact hx.due p m token hmem
      | _ => cases hg
    · unfold Handler.work at hg
      split at hg
      next => exact absurd rfl (hno _)
      next => cases hg
  · have hold := sending_after hg
    obtain ⟨p, m, token, rfl, rfl, hid⟩ := hx.sending j h b id hw hold
    refine ⟨p, m, token, rfl, rfl, ?_⟩
    cases hs with
    | @turn _ _ h' b' k r' w' ht ho' hr' =>
      have hw' := Config.waiting_of_get ht
      rw [hw] at hw'
      cases hw'
      rw [hr] at hr'
      cases hr'
      have hturn := holderTurn_hold ledger j x.world.nextToken b
        ((ledger.work j).after svc (.task (.send p m token)) b r)
      change ledger.hold j x.world.nextToken b (ledger.work j) _ m.id = _
      generalize ledger.hold j x.world.nextToken b (ledger.work j)
        ((ledger.work j).after svc (.task (.send p m token)) b r) = holder' at hturn ⊢
      cases hturn with
      | tracked hc =>
        subst hc
        cases hg
      | picked hc ha => cases ha.symm.trans hg
      | @released sent hsend ha =>
        cases hsend.symm.trans hold
        exact absurd hg ha
      | kept => exact hid

theorem HeldRun.due_next (hx : HeldRun svc x ledger) (hs : WorkStep svc x ledger a y ledger') :
    ∀ p m token, Task.send p m token ∈ y.world.tasks →
      ledger'.holder m.id = some (.tracked token) := by
  intro p m token hmem
  cases hs with
  | start h w hw =>
    rcases startHandler_cases hw with ⟨t, -, -, rfl⟩ | ⟨-, rfl⟩
    · exact hx.due p m token (List.mem_of_mem_erase hmem)
    · exact hx.due p m token hmem
  | elapse ms => exact hx.due p m token hmem
  | @turn i o h c k r w ht ho hr =>
    have hw := Config.waiting_of_get ht
    rcases tasks_respond hr _ hmem with hdue | rfl | ⟨p', m', rfl, he⟩
    · have hid := hx.due p m token hdue
      refine hx.holder_kept hw ho hr hid nofun fun hi => ?_
      obtain ⟨p', m', token', rfl, -, hid'⟩ := hx.sending i h c m.id hw hi
      cases hid.symm.trans hid'
      have hother : Task.token (.send p m token) ≠ some token := hx.tokens.tasks ht hdue rfl
      exact hother rfl
    · exact absurd rfl ((hx.watched.allows hw).2 p m token)
    · cases he
      exact Function.update_self _ _ _

theorem HeldRun.registered_next (hx : HeldRun svc x ledger) (hs : WorkStep svc x ledger a y ledger') :
    ∀ id token, ledger'.holder id = some (.tracked token) →
      y.world.inFlightSends id = some token := by
  intro id token hid
  cases hs with
  | start h w hw =>
    have hold := hx.registered id token hid
    rcases startHandler_cases hw with ⟨t, -, -, rfl⟩ | ⟨-, rfl⟩ <;> exact hold
  | elapse ms => exact hx.registered id token hid
  | @turn i o h c k r w ht ho hr =>
    have hw := Config.waiting_of_get ht
    rcases hx.tracked_before hw hid with ⟨p, message, rfl, rfl, rfl⟩ | ⟨hold, hsend⟩
    · cases hr
      exact Function.update_self _ _ _
    · have hin := hx.registered id token hold
      rcases respond_memory hr with ⟨p, message, rfl, he⟩ | ⟨m, token', rfl, he⟩ | ⟨he, -⟩
      · have hne : id ≠ message.id := by
          rintro rfl
          cases hold.symm.trans (hx.window hw)
        change w.inFlightSends id = some token
        rw [he]
        exact (Function.update_of_ne hne _ _).trans hin
      · obtain ⟨p, message, rfl, rfl⟩ := hx.watched.allows hw
        change w.inFlightSends id = some token
        rw [he]
        unfold World.settle
        split
        next hsettles =>
          have hne : id ≠ message.id := by
            rintro rfl
            cases hin.symm.trans hsettles
            by_cases hg : ledger.work i = .sending message.id
            · cases hsend hg
            · exact hx.settled i p message token _ ht hg hold
          exact (Function.update_of_ne hne _ _).trans hin
        next => exact hin
      · change w.inFlightSends id = some token
        rw [he]
        exact hin

theorem HeldRun.settled_next (hx : HeldRun svc x ledger) (hs : WorkStep svc x ledger a y ledger') :
    ∀ (j : Nat) p m token q, y.threads[j]? = some (.task (.send p m token), q) →
      ledger'.work j ≠ .sending m.id → ledger'.holder m.id ≠ some (.tracked token) := by
  intro j p m token q hj hne hid
  cases hs with
  | start h w hw =>
    by_cases hlt : j < x.threads.length
    · rw [List.getElem?_append_left hlt] at hj
      change Function.update ledger.work x.threads.length h.work j ≠ _ at hne
      rw [Function.update_of_ne (Nat.ne_of_lt hlt)] at hne
      exact hx.settled j p m token q hj hne hid
    · rw [List.getElem?_append_right (Nat.le_of_not_lt hlt)] at hj
      have hlt' := (List.getElem?_eq_some_iff.mp hj).1
      have hlast : j = x.threads.length := by
        rw [List.length_singleton] at hlt'
        omega
      obtain ⟨rfl, -⟩ := Prod.mk.inj (List.eq_of_mem_singleton (List.mem_of_getElem? hj))
      rw [hlast] at hne
      exact hne (Function.update_self _ _ _)
  | elapse ms => exact hx.settled j p m token q hj hne hid
  | @turn i o h c k r w ht ho hr =>
    have hw := Config.waiting_of_get ht
    obtain ⟨q', hj'⟩ : ∃ q', x.threads[j]? = some (.task (.send p m token), q') := by
      by_cases hij : i = j
      · subst hij
        rw [List.getElem?_set_self (List.getElem?_eq_some_iff.mp ht).1] at hj
        obtain ⟨rfl, -⟩ := Prod.mk.inj (Option.some.inj hj)
        exact ⟨_, ht⟩
      · rw [List.getElem?_set_ne hij] at hj
        exact ⟨q, hj⟩
    rcases hx.tracked_before hw hid with ⟨p', message, rfl, -, rfl⟩ | ⟨hold, hsend⟩
    · exact absurd (hx.tokens.thread_issued hj' rfl) (Nat.lt_irrefl _)
    · refine hx.settled j p m token q' hj' (fun hg => hne ?_) hold
      by_cases hij : j = i
      · subst hij
        exact (Function.update_self _ _ _).trans (hsend hg)
      · exact (Function.update_of_ne hij _ _).trans hg

theorem homed_next (hx : x.world.store.Homed svc) (hw : Watched svc x ledger)
    (hs : WorkStep svc x ledger a y ledger') : y.world.store.Homed svc := by
  cases hs with
  | start h w hstart => rcases startHandler_cases hstart with ⟨t, -, -, rfl⟩ | ⟨-, rfl⟩ <;> exact hx
  | elapse ms => exact hx
  | @turn i o h c k r w ht ho hr =>
    rcases respond_store hr with he | ⟨c, rfl, -, he⟩
    · exact fun e hmem => hx e (he ▸ hmem)
    · have hallows := hw.allows (Config.waiting_of_get ht)
      change w.store.Homed svc
      rw [he]
      cases c with
      | enqueueDeviceMessage dto q =>
        intro e hmem
        rcases List.mem_append.mp hmem with hmem | hmem
        · exact hx e hmem
        · rw [List.mem_singleton.mp hmem]
          exact hallows
      | _ => exact hx

theorem HeldRun.next (hx : HeldRun svc x ledger) (hok : PicksAlone x ledger a)
    (hy : (engine svc {}).next a x = some y) : HeldRun svc y (noteWork svc x a ledger) := by
  have hs : WorkStep svc x ledger a y (noteWork svc x a ledger) := workStep_of_next hy
  exact {
    watched := hx.watched.next hy
    commissioned := hx.commissioned.next hy
    queued := queuesNamed_next hx.queued hy
    homed := homed_next hx.homed hx.watched hs
    tokens := hx.tokens.next hx.watched hs
    held := hx.held_next hok hy
    windows := hx.windows_next hs
    sending := hx.sending_next hs
    due := hx.due_next hs
    registered := hx.registered_next hs
    settled := hx.settled_next hs }

end Step

theorem heldRun_initial : HeldRun svc Process.initial {} where
  watched := watched_initial
  commissioned := commissioned_initial
  queued _ _ h := absurd h SortedSet.not_mem_empty
  homed _ h := by cases h
  tokens := tokensApart_initial
  held _ h := absurd rfl h
  windows _ _ _ _ h := by cases h
  sending _ _ _ _ h := by cases h
  due _ _ _ h := by cases h
  registered _ _ h := by cases h
  settled _ _ _ _ _ h := by cases h

/-- In a run whose picks are alone, a message is in `ns` from its pick to the end of its send,
only that send takes it out, and no two sends of it are outstanding. -/
theorem worked_heldSends (hx : Worked svc PicksAlone x ledger) : HeldSends x ledger := by
  have hrun : HeldRun svc x ledger := by
    refine hx.invariant (I := HeldRun svc) heldRun_initial ?_
    intro x y a ledger hI hok hy
    exact hI.next hok hy
  refine ⟨fun id hid => (hrun.held id hid).inNs, ?_, ?_, ?_⟩
  · intro id hid j h c hw ht
    exact hrun.sending j h _ id hw (hrun.takenOut hw hid ht)
  · intro j h p m hw
    obtain ⟨-, -, token, -, -, hid⟩ := hrun.sending j h _ m.id hw (hrun.watched.allows hw).1
    exact (hrun.held m.id (by rw [hid]; exact nofun)).inNs
  · intro i j h h' p p' m m' hi hj he
    have hg := (hrun.watched.allows hi).1
    have hg' := (hrun.watched.allows hj).1
    exact hrun.one_sender hi hj hg (he ▸ hg')

instance (g : Work) (id : MessageId) : Decidable (g.Stale id) :=
  inferInstanceAs (Decidable (_ ∨ _))

def unseenCheck (x : Process) (ledger : WorkLedger) (id : MessageId) : Bool :=
  (List.range x.threads.length).all fun j => (x.waiting j).isNone || ¬ (ledger.work j).Stale id

/-- The condition of a run with every message in one queue, checked. -/
def picksAloneCheck (x : Process) (ledger : WorkLedger) (a : Choice Handler Oracle Disturbance) :
    Bool :=
  match a with
  | .turn i _ =>
    match x.waiting i with
    | some (_, .hasInFlightSend id) => (ledger.holder id).all fun holder =>
      match holder with
      | .window _ => false
      | .tracked _ => true
    | some (_, .redis (.fetchNextMessageInQueueAndMove args)) =>
      (x.world.store.redis.queues args.sourceQueue).popMin.all fun e => unseenCheck x ledger e.1
    | some (h, .redis (.hgetall id)) => h.takesBesideNs → ledger.holder id = none
    | _ => true
  | _ => true

theorem unseen_of_check (hc : unseenCheck x ledger id = true) :
    ∀ j h c, x.waiting j = some (h, c) → ¬ (ledger.work j).Stale id := by
  intro j h c hw
  obtain ⟨k, ht⟩ := Config.get_of_waiting hw
  have hj := List.all_eq_true.mp hc j (List.mem_range.mpr (List.getElem?_eq_some_iff.mp ht).1)
  rw [hw] at hj
  simpa using hj

theorem picksAlone_of_check (x : Process) (ledger : WorkLedger)
    (a : Choice Handler Oracle Disturbance) (hp : x.world.store.SinglePlacement)
    (hc : picksAloneCheck x ledger a = true) : PicksAlone x ledger a := by
  constructor
  · rintro i o h id slot rfl hw hid
    simp [picksAloneCheck, hw, hid] at hc
  · rintro i o h args id rest rfl hw hpop
    simp only [picksAloneCheck, hw, hpop, Option.all_some] at hc
    have hsource := (SortedSet.mem_popMin hpop).mpr (.inl rfl)
    exact ⟨fun q hq => hp id q _ hq hsource, unseen_of_check hc⟩
  · rintro i o h id rfl hw
    simp only [picksAloneCheck, hw, decide_eq_true_eq] at hc
    exact hc

/-- A pass picks the sample command and hands its send off; while the send is outstanding, the
deadline in `ns` is due and asks for it. -/
def heldDeadline : List (Choice Handler Oracle Disturbance) :=
  List.flatten [
    [.start (.enqueue sampleCreate), .turn 0 { id := sampleId }, .start .distribute], turns 1 2 {},
    [.start (.task (.distributeQueue sampleQueue))], turns 2 8 {},
    [.start (.task (.send "calin-chirpstack" sampleMessage 0)), .turn 3 {}, .start .tick,
      .turn 4 { now := 900000 }], turns 4 6 {},
    [.start (.task (.drain ⟨.ns, .ns⟩ 900000))], turns 5 6 {}]

theorem heldDeadline_kept : ∃ x ledger, Worked vendorService PicksAlone x ledger ∧
    ledger.holder sampleId ≠ none ∧ HeldSends x ledger := by
  have hrun : ((engine vendorService {}).followRecorded
      (fun x ledger a => checkCommand claimStandsCheck x a && picksAloneCheck x ledger a)
      (noteWork vendorService) heldDeadline Process.initial {}).any
        (fun s => s.2.holder sampleId ≠ none) = true := by
    decide +kernel
  obtain ⟨⟨x, ledger⟩, hs, hheld⟩ := (Option.any_eq_true _ _).mp hrun
  have hx : Worked vendorService PicksAlone x ledger := placed_of_follow picksAlone_of_check hs
  exact ⟨x, ledger, hx, of_decide_eq_true hheld, worked_heldSends hx⟩

/-- The message as it is picked anew. -/
def retriedMessage : DeviceMessage :=
  { sampleMessage with
    retryCount := some 1
    failureHistory :=
      [failureEntry { reason := timeoutReason .ns none } (some .SENT_TO_NS) 0 false] }

/-- While a pass awaits its first-send event, the deadline in `ns` fires; the pass then hands
its send off, and once the retry is due, the next pass sends the message again. -/
def sentTwice : List (Choice Handler Oracle Disturbance) :=
  List.flatten [
    [.start (.enqueue sampleCreate), .turn 0 { id := sampleId }, .start .distribute], turns 1 2 {},
    [.start (.task (.distributeQueue sampleQueue))], turns 2 6 {},
    [.start .tick, .turn 3 { now := 900000 }], turns 3 6 {},
    [.start (.task (.drain ⟨.ns, .ns⟩ 900000))], turns 4 12 {}, turns 2 2 {},
    [.start (.task (.send "calin-chirpstack" sampleMessage 0)), .turn 5 {}, .start .tick,
      .turn 6 { now := 1900000 }], turns 6 6 {},
    [.start (.task (.drain ⟨.retry, .retry⟩ 1900000))], turns 7 6 {},
    [.disturb (.elapse 3000), .start .distribute], turns 8 2 {},
    [.start (.task (.distributeQueue sampleQueue))], turns 9 4 {},
    [.start (.task (.send "calin-chirpstack" retriedMessage 1)), .turn 10 {}]]

/-- The message whose send a command awaits. -/
def Cmd.awaitedId (c : Cmd) : Option MessageId :=
  match c with
  | .sendOneResult _ message => some message.id
  | _ => none

theorem awaitedId_some {c : Cmd} (hc : c.awaitedId = some id) :
    ∃ p m, c = .sendOneResult p m ∧ m.id = id := by
  unfold Cmd.awaitedId at hc
  split at hc
  next p m => exact ⟨p, m, rfl, Option.some.inj hc⟩
  next => cases hc

theorem pickedSend_retried :
    ¬ ∀ x ledger, Worked vendorService (fun _ _ _ => True) x ledger → HeldSends x ledger := by
  intro hall
  have hrun : ((engine vendorService {}).followRecorded (fun _ _ _ => true)
      (noteWork vendorService) sentTwice Process.initial {}).any (fun s =>
        ((s.1.waiting 5).any fun t => t.2.awaitedId = some sampleId) ∧
          (s.1.waiting 10).any fun t => t.2.awaitedId = some sampleId) = true := by
    decide +kernel
  obtain ⟨⟨x, ledger⟩, hs, hsent⟩ := (Option.any_eq_true _ _).mp hrun
  obtain ⟨hfirst, hsecond⟩ := of_decide_eq_true hsent
  obtain ⟨⟨h, c⟩, hw, hc⟩ := (Option.any_eq_true _ _).mp hfirst
  obtain ⟨⟨h', c'⟩, hw', hc'⟩ := (Option.any_eq_true _ _).mp hsecond
  obtain ⟨p, m, rfl, hm⟩ := awaitedId_some (of_decide_eq_true hc)
  obtain ⟨p', m', rfl, hm'⟩ := awaitedId_some (of_decide_eq_true hc')
  have hx : Worked vendorService (fun _ _ _ => True) x ledger :=
    .of_follow (fun _ _ _ _ => trivial) .init hs
  cases (hall x ledger hx).once 5 10 h h' p p' m m' hw hw' (hm.trans hm'.symm)

end DeviceMessaging
