import DeviceMessaging.EndWatchPrograms
import DeviceMessaging.PlainPrograms
import DeviceMessaging.RedisMessages

namespace DeviceMessaging

open Effect

variable {svc : Service} {weather : Weather} {x y : Process}

/-- Every stored hash names its plugin, unless it cannot be loaded. -/
def Store.NamesPlugins (s : Store) : Prop :=
  ∀ id h, s.redis.messages id = some h → h.NamesPlugin

/-- A terminal event of the message was persisted. -/
def Store.Reported (s : Store) (id : MessageId) : Prop :=
  ∃ record ∈ s.persisted, record.terminalOf = some id

theorem namesPlugins_empty : Store.empty.NamesPlugins := by
  intro id h hi
  cases hi

theorem namesPlugins_update {f g : MessageId → Option MessageHash} {id : MessageId}
    {h : MessageHash} (hf : ∀ i h, f i = some h → h.NamesPlugin) (hh : h.NamesPlugin)
    (hg : g = Function.update f id (some h)) : ∀ i h, g i = some h → h.NamesPlugin := by
  intro i h' hi
  rw [hg] at hi
  rcases update_some_cases hi with ⟨-, rfl⟩ | ⟨-, hi⟩
  · exact hh
  · exact hf i h' hi

theorem namesPlugins_exec {s : Store} {c : RedisCmd} {id : MessageId} (hs : s.NamesPlugins) :
    (s.exec c id).2.NamesPlugins := by
  have hw := exec_hashWrite s c id
  unfold Store.NamesPlugins at hs ⊢
  generalize (s.exec c id).2.redis.messages = f at hw ⊢
  cases hw with
  | keep => exact hs
  | @enqueue dto => exact namesPlugins_update hs (.inr ⟨dto.pluginId, rfl, dto.pluginId_ne⟩) rfl
  | @move a h hh =>
    refine namesPlugins_update hs ?_ rfl
    unfold movedHash setDelivery
    split <;> exact hs _ h hh
  | @pick a m h hh => exact namesPlugins_update (h := pickedHash a h) hs (hs m h hh) rfl
  | @retry a =>
    refine namesPlugins_update hs ?_ rfl
    cases hm : s.redis.messages a.messageId with
    | none => exact .inl rfl
    | some h => exact hs _ h hm
  | @purge m => exact fun i h hi => hs i h (update_none_cases hi).2

theorem namesPlugins_disturb {s : Store} {d : Disturbance} (hs : s.NamesPlugins) :
    (s.disturb d).NamesPlugins := by
  cases d with
  | expireMessage id =>
    exact fun i h hi => hs i h (update_none_cases hi).2
  | _ => exact hs

theorem fetch_reply {a : FetchArgs} {r : Redis} {id : MessageId} {h : MessageHash}
    (hv : (fetchNextMessageInQueueAndMove a r).1 = .ok (some (id, h))) :
    h.deliveryStatus = some a.newStatus := by
  rcases fetch_cases a r with he | he | ⟨m, rest, hp, ⟨-, he⟩ | ⟨-, he⟩ | ⟨g, t, hg, -, he⟩⟩ <;>
    rw [he] at hv
  · cases hv
  · cases hv
  · cases hv
  · cases hv
  · have hm : (popSource a rest r).messages m = some g := by rw [popSource_messages, hg]
    rw [pickClaimed_messages hm, Function.update_self] at hv
    simp only [Option.map_some, Except.ok.injEq, Option.some.injEq, Prod.mk.injEq] at hv
    rw [← hv.2]
    rfl

theorem respond_fits {o : Oracle} {c : Cmd} {w w' : World} {r : Reply c}
    (hs : w.store.NamesPlugins) (h : respond o c w = some (r, w')) : ReplyFits c r := by
  unfold ReplyFits
  split
  next id h' =>
    simp only [respond, execRedis] at h
    split at h
    next =>
      split at h <;> simp only [Option.some.injEq, Prod.mk.injEq, reduceCtorEq, false_and] at h
      exact hs id h' (by simpa [Store.exec, RedisCmd.run] using h.1)
    next => cases h
  next a id h' =>
    simp only [respond, execRedis] at h
    split at h
    next =>
      split at h <;> simp only [Option.some.injEq, Prod.mk.injEq, reduceCtorEq, false_and] at h
      exact fetch_reply h.1
    next => cases h
  next => trivial

/-- The commands of a cancel: they report nothing. -/
def cancelWatch : Monitor Cmd Reply EndPhase where
  allows _ c := ∀ record now, c ≠ .redis (.webhookEnqueue record now)
  next g _ _ g' := g' = g

/-- All handlers under watch: who owes a purge has reported the message. -/
def endWatchers : Watch Cmd Reply Handler World EndPhase where
  monitor h := if h.isCancel then cancelWatch else endWatch
  ends h g := h.isCancel = false → g.Calm
  holds h g w := h.isCancel = false → ∀ id, g = .emitted id → w.store.Reported id

theorem quiet_watch (c : Cmd) (hc : c.Quiet) :
    (Prog.command c : Engine (Reply c)).Keeps cancelWatch fun _ => True := by
  refine fun _ _ => ⟨fun record now he => ?_, fun _ _ _ => trivial⟩
  subst he
  exact hc

theorem cancelProgram_watch (m : DeviceMessage) (g : EndPhase) :
    (taskProgram svc (.cancelMessage m)).wp cancelWatch (fun _ _ => True) (fun _ _ => True) g :=
  Prog.keeps_bind (cancelOneMessage_keeps quiet_watch m) (fun _ => Prog.keeps_pure ()) g trivial

theorem persisted_exec {s : Store} {c : RedisCmd} {id : MessageId} :
    ∀ record ∈ s.persisted, record ∈ (s.exec c id).2.persisted := by
  intro record hr
  cases c <;> simp [Store.exec, Store.note, hr]

theorem respond_persisted {o : Oracle} {c : Cmd} {w w' : World} {r : Reply c}
    (hr : respond o c w = some (r, w')) :
    ∀ record ∈ w.store.persisted, record ∈ w'.store.persisted := by
  rcases respond_store hr with hs | ⟨c', -, -, hs⟩ <;> rw [hs]
  · exact fun _ h => h
  · exact persisted_exec

theorem persisted_next {a : Choice Handler Oracle Disturbance}
    (hy : (engine svc weather).next a x = some y) :
    ∀ record ∈ x.world.store.persisted, record ∈ y.world.store.persisted := by
  rcases store_next hy with hs | ⟨i, o, h, c, -, -, -, hs⟩ | ⟨d, -, hs⟩ <;> rw [hs]
  · exact fun _ h => h
  · exact persisted_exec
  · exact fun _ h => h

theorem isCancel_eq {h : Handler} (hc : h.isCancel = true) :
    ∃ m, h = .task (.cancelMessage m) := by
  unfold Handler.isCancel at hc
  split at hc
  next m => exact ⟨m, rfl⟩
  next => cases hc

theorem vouches_start (hw : svc.webhook = true) (h : Handler) (w : World) :
    endWatchers.Vouches (h, handlerProgram svc h) w := by
  cases hc : h.isCancel with
  | true =>
    obtain ⟨m, rfl⟩ := isCancel_eq hc
    refine ⟨.idle, ?_, fun h => nomatch h⟩
    exact Prog.wp_mono (cancelProgram_watch m .idle) (fun _ _ _ h => nomatch h)
      fun _ _ _ h => nomatch h
  | false =>
    refine ⟨.idle, ?_, fun _ _ h => nomatch h⟩
    simp only [endWatchers, hc, Bool.false_eq_true, ↓reduceIte]
    exact Prog.wp_mono (handlerProgram_calm hw h hc) (fun _ _ hg _ => hg) fun _ _ hg _ => hg

theorem reported_turn {o : Oracle} {c : Cmd} {w w' : World} {r : Reply c} {g : EndPhase}
    {id : MessageId} (hr : respond o c w = some (r, w')) (hn : g.next c r = .emitted id)
    (hg : g = .emitted id → w'.store.Reported id) : w'.store.Reported id := by
  unfold EndPhase.next at hn
  split at hn
  next record now v =>
    simp only [respond, execRedis] at hr
    split at hr
    next =>
      split at hr <;> simp only [Option.some.injEq, Prod.mk.injEq, reduceCtorEq, false_and] at hr
      refine ⟨record, ?_, ?_⟩
      · rw [← hr.2]
        simp [Store.exec, Store.note]
      · cases ht : record.terminalOf with
        | none => simp [ht] at hn
        | some i => simpa [ht] using hn
    next => cases hr
  next record now e =>
    cases ht : record.terminalOf <;> simp [ht] at hn
  next => exact hg hn
  next => cases hn
  next => exact hg hn

/-- Throughout a run every handler is under watch. -/
theorem reached_vouched {ok : Process → Choice Handler Oracle Disturbance → Prop}
    (hw : svc.webhook = true) (hx : Reached svc weather ok x) :
    x.world.store.NamesPlugins ∧ ∀ t ∈ x.threads, endWatchers.Vouches t x.world := by
  refine hx.invariant (I := fun x => x.world.store.NamesPlugins ∧
    ∀ t ∈ x.threads, endWatchers.Vouches t x.world)
    ⟨namesPlugins_empty, fun t h => absurd h List.not_mem_nil⟩ ?_
  rintro x y a ⟨hs, ht⟩ - hy
  have hstable : ∀ h g, endWatchers.holds h g x.world → endWatchers.holds h g y.world := by
    intro h g hg hc id he
    obtain ⟨record, hr, hid⟩ := hg hc id he
    exact ⟨record, persisted_next hy record hr, hid⟩
  refine ⟨?_, System.vouched_next ht hy (fun h w _ _ => vouches_start hw h w) hstable ?_⟩
  · rcases store_next hy with he | ⟨i, o, h, c, -, -, -, he⟩ | ⟨d, -, he⟩ <;> rw [he]
    · exact hs
    · exact namesPlugins_exec hs
    · exact namesPlugins_disturb hs
  · intro i o h c r w g ha hwait hr hallow hg
    simp only [engine] at hr
    split at hr
    next =>
      cases hc : h.isCancel with
      | true =>
        refine ⟨g, ?_, fun hf => ?_⟩
        · simp [endWatchers, hc, cancelWatch]
        · exact absurd (hc.symm.trans hf) (by decide)
      | false =>
        refine ⟨g.next c r, ?_, fun _ id hn => ?_⟩
        · simp only [endWatchers, hc, Bool.false_eq_true, ↓reduceIte]
          exact ⟨respond_fits hs hr, rfl⟩
        · refine reported_turn hr hn fun he => ?_
          obtain ⟨record, hm, hid⟩ := hg hc id he
          exact ⟨record, respond_persisted hr record hm, hid⟩
    next => cases hr

/-- Only a purge makes a hash go away. -/
theorem exec_deletes {s : Store} {c : RedisCmd} {i id : MessageId}
    (hx : s.redis.messages id ≠ none) (hy : (s.exec c i).2.redis.messages id = none) :
    (Cmd.redis c).purges = some id := by
  have hw := exec_hashWrite s c i
  generalize (s.exec c i).2.redis.messages = f at hw hy
  have hkeep : ∀ {m h}, Function.update s.redis.messages m (some h) id ≠ none := by
    intro m h
    by_cases e : id = m
    · simp [e]
    · rwa [Function.update_of_ne e]
  cases hw with
  | keep => exact absurd hy hx
  | @purge m =>
    by_cases e : id = m.id
    · exact congrArg some e.symm
    · rw [Function.update_of_ne e] at hy
      exact absurd hy hx
  | _ => exact absurd hy hkeep

/-- The hash of a message and its places are as they were. -/
def Redis.SameFor (r r' : Redis) (id : MessageId) : Prop :=
  r'.messages id = r.messages id ∧ ∀ q, id ∈ r'.queues q ↔ id ∈ r.queues q

/-- A command that leaves a message as it is, whatever it is answered. -/
def Cmd.Spares (c : Cmd) (id : MessageId) : Prop :=
  ∀ o w r w', respond o c w = some (r, w') → w.store.redis.SameFor w'.store.redis id

theorem spares_of_harmless {c : Cmd} (hc : c.isHarmless = true) (id : MessageId) :
    c.Spares id := by
  intro o w r w' hr
  rcases respond_store hr with hs | ⟨c', rfl, -, hs⟩ <;> rw [hs]
  · exact ⟨rfl, fun _ => Iff.rfl⟩
  · unfold Cmd.isHarmless at hc
    split at hc
    next q score m he =>
      cases he
      cases score with
      | none => exact ⟨rfl, fun _ => Iff.rfl⟩
      | some k =>
        refine ⟨rfl, fun p => ?_⟩
        simp only [Store.exec, RedisCmd.run, Redis.setQueue]
        by_cases e : p = q
        · subst e
          rw [Function.update_self, SortedSet.mem_rescore]
        · rw [Function.update_of_ne e]
    next => cases hc
    next hne => exact absurd rfl (hne c')

theorem spared_purges {c : Cmd} (h : c.isHarmless = true ∨ c.isLoad = true) : c.purges = none := by
  cases c with
  | redis c => cases c <;> first | rfl | (rcases h with h | h <;> cases h)
  | _ => rfl

/-- A thread about to purge has reported the message, unless it is a cancel. -/
theorem purge_reported {t : Handler × Engine Unit} {w : World} {c : Cmd} {id : MessageId}
    (ht : endWatchers.Vouches t w) (hc : t.1.isCancel = false) (hp : t.2.pending = some c)
    (hpurge : c.purges = some id) : w.store.Reported id := by
  obtain ⟨h, p⟩ := t
  obtain ⟨g, hwp, hg⟩ := ht
  cases p with
  | pure a => cases hp
  | fail e => cases hp
  | step c' k =>
    cases Option.some.inj hp
    simp only [endWatchers, hc, Bool.false_eq_true, ↓reduceIte] at hwp
    refine hg hc id ?_
    cases g with
    | idle => exact absurd (hwp.1.symm.trans hpurge) (by simp)
    | emitted i => exact congrArg _ (Option.some.inj (hwp.1.symm.trans hpurge))
    | refused i => exact absurd ((spared_purges hwp.1).symm.trans hpurge) (by simp)

/-- A step of the engine that takes a message away: it expired, a cancel claimed it, or an event
of its end has been handed over. -/
theorem gone_reported {ok : Process → Choice Handler Oracle Disturbance → Prop}
    (hw : svc.webhook = true)
    (hx : Reached svc weather ok x) {a : Choice Handler Oracle Disturbance}
    (hy : (engine svc weather).next a x = some y) {id : MessageId}
    (hm : x.world.store.redis.messages id ≠ none) (hn : y.world.store.redis.messages id = none) :
    a = .disturb (.expireMessage id) ∨
      (∃ i o m c, a = .turn i o ∧ x.waiting i = some (.task (.cancelMessage m), c) ∧
        c.purges = some id) ∨ x.world.store.Reported id := by
  rcases store_next hy with hs | ⟨i, o, h, c, rfl, hwait, -, hs⟩ | ⟨d, rfl, hs⟩ <;> rw [hs] at hn
  · exact absurd hn hm
  · have hpurge := exec_deletes hm hn
    cases hc : h.isCancel with
    | true =>
      obtain ⟨m, rfl⟩ := isCancel_eq hc
      exact .inr (.inl ⟨i, o, m, _, rfl, hwait, hpurge⟩)
    | false =>
      obtain ⟨p, hp, hpend⟩ := Config.waiting_mem hwait
      exact .inr (.inr (purge_reported ((reached_vouched hw hx).2 _ hp) hc hpend hpurge))
  · cases d with
    | expireMessage m =>
      by_cases he : id = m
      · exact .inl (he ▸ rfl)
      · simp only [Store.disturb, Disturbance.apply, Redis.delMessage,
          Function.update_of_ne he] at hn
        exact absurd hn hm
    | _ => exact absurd hn hm

/-- The success of the sample command, up to its cleanup. -/
def successIngress : List (Choice Handler Oracle Disturbance) :=
  .start (.ingress "calin-chirpstack" (sampleEvent .DELIVERY_SUCCESSFUL)) :: turns 4 7 {}

end DeviceMessaging
