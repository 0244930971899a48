import DeviceMessaging.ProperPrograms

namespace DeviceMessaging

open Effect

variable {svc : Service} {weather : Weather} {x y : Process} {s : Store}

/-- No stored count of retries is unreadable. -/
def Store.Counted (s : Store) : Prop :=
  ∀ id h, s.redis.messages id = some h → h.retryCount ≠ some .unreadable

theorem counted_exec {c : RedisCmd} {i : MessageId} (hs : s.Counted)
    (hc : ∀ a, c = .enterRetry a → a.retryCount ≠ none) : (s.exec c i).2.Counted := by
  have hw := exec_hashWrite s c i
  unfold Store.Counted at hs ⊢
  generalize (s.exec c i).2.redis.messages = f at hw ⊢
  have hput : ∀ {m : MessageId} {g : MessageHash}, g.retryCount ≠ some .unreadable →
      ∀ id h, Function.update s.redis.messages m (some g) id = some h →
        h.retryCount ≠ some .unreadable := by
    intro m g hg id h hh
    rcases update_some_cases hh with ⟨-, rfl⟩ | ⟨-, hh⟩
    · exact hg
    · exact hs id h hh
  cases hw with
  | keep => exact hs
  | @enqueue dto q =>
    refine hput ?_
    cases hm : s.redis.messages i with
    | none => simp [MessageHash.write, serializeCreateDeviceMessage]
    | some h => simpa [MessageHash.write, serializeCreateDeviceMessage] using hs i h hm
  | @move a h hh =>
    refine hput ?_
    have hr : (movedHash a h).retryCount = h.retryCount := by
      unfold movedHash setDelivery
      split <;> rfl
    rw [hr]
    exact hs _ h hh
  | @pick a m h hh => exact hput (hs m h hh)
  | @retry a =>
    refine hput ?_
    obtain ⟨n, hn⟩ := Option.ne_none_iff_exists'.mp (hc a rfl)
    simp [retryHash, setRetry, hn]
  | @purge m => exact fun id h hh => hs id h (update_none_cases hh).2

theorem counted_disturb (hs : s.Counted) (d : Disturbance) : (s.disturb d).Counted := by
  cases d with
  | expireMessage m => exact fun id h hh => hs id h (update_none_cases hh).2
  | _ => exact hs

/-- A pick hands over the hash as it leaves it stored. -/
theorem fetch_reply_stored {a : FetchArgs} {r : Redis} {id : MessageId} {h : MessageHash}
    (hv : (fetchNextMessageInQueueAndMove a r).1 = .ok (some (id, h))) :
    (fetchNextMessageInQueueAndMove a r).2.messages id = some h := by
  rcases fetch_cases a r with he | he | ⟨m, rest, hp, ⟨-, he⟩ | ⟨-, he⟩ | ⟨g, t, hg, -, he⟩⟩ <;>
    rw [he] at hv ⊢
  · cases hv
  · cases hv
  · cases hv
  · cases hv
  · simp only [Except.ok.injEq] at hv
    obtain ⟨h', hh', he⟩ := Option.map_eq_some_iff.mp hv
    cases he
    exact hh'

theorem Provenance.known (hs : Provenance s) (hc : s.Counted) {id : MessageId} {h : MessageHash}
    (hh : s.redis.messages id = some h) : KnownHash s.enqueued id h := by
  rcases hs.stored id h hh with hd | ⟨dto, hdto, hcr⟩
  · exact .inl hd
  · exact .inr ⟨dto, hdto, hcr, hc id h hh⟩

/-- All handlers under watch: they act for requests that were made. -/
def commission (svc : Service) : Watch Cmd Reply Handler World Requests where
  monitor _ := sourced svc
  ends _ _ := True
  holds _ g w := g ⊆ w.store.enqueued

/-- What holds throughout a run of the service. -/
structure Commissioned (svc : Service) (x : Process) : Prop where
  provenance : Provenance x.world.store
  counted : x.world.store.Counted
  tasks : ∀ t ∈ x.world.tasks, t.Proper x.world.store.enqueued
  threads : ∀ t ∈ x.threads, (commission svc).Vouches t x.world

theorem commissioned_initial : Commissioned svc Process.initial where
  provenance := provenance_empty
  counted _ _ h := nomatch h
  tasks _ h := nomatch h
  threads _ h := nomatch h

/-- The command a thread waits on is proper. -/
theorem Commissioned.proper (hx : Commissioned svc x) {i : Nat} {h : Handler} {c : Cmd}
    (hw : x.waiting i = some (h, c)) : c.Proper svc x.world.store.enqueued := by
  obtain ⟨p, hp, hc⟩ := Config.waiting_mem hw
  obtain ⟨g, hwp, hg⟩ := hx.threads _ hp
  cases p with
  | step c' k =>
    cases hc
    exact Cmd.Proper.mono hwp.1 hg
  | pure a => cases hc
  | fail e => cases hc

theorem enqueued_respond {o : Oracle} {c : Cmd} {w w' : World} {r : Reply c}
    (hr : respond o c w = some (r, w')) : w.store.enqueued ⊆ w'.store.enqueued := by
  rcases respond_store hr with hs | ⟨c', -, -, hs⟩ <;> rw [hs]
  · exact List.Subset.refl _
  · exact fun e he => enqueued_exec _ _ _ e he

/-- What a command can do to the memory of the process, but for its drains. -/
theorem respond_memory {o : Oracle} {c : Cmd} {w w' : World} {r : Reply c}
    (hr : respond o c w = some (r, w')) :
    (∃ p m, c = .trackSend p m ∧ w' = w.track p m) ∨
    (∃ id token, c = .settleSend id token ∧ w' = w.settle id token) ∨
    (w'.inFlightSends = w.inFlightSends ∧ w'.nextToken = w.nextToken ∧
      (w'.tasks = w.tasks ∨ ∃ t, c = .spawn t ∧ w'.tasks = w.tasks ++ [t])) := by
  cases c with
  | redis c =>
    simp only [respond, execRedis] at hr
    split at hr
    next => split at hr <;> cases hr <;> exact .inr (.inr ⟨rfl, rfl, .inl rfl⟩)
    next => cases hr
  | mathRandom =>
    simp only [respond] at hr
    split at hr <;> cases hr
    exact .inr (.inr ⟨rfl, rfl, .inl rfl⟩)
  | beginDrain q =>
    simp only [respond] at hr
    split at hr <;> cases hr <;> exact .inr (.inr ⟨rfl, rfl, .inl rfl⟩)
  | trackSend p m =>
    cases hr
    exact .inl ⟨p, m, rfl, rfl⟩
  | settleSend id token =>
    cases hr
    exact .inr (.inl ⟨id, token, rfl, rfl⟩)
  | spawn t =>
    cases hr
    exact .inr (.inr ⟨rfl, rfl, .inr ⟨t, rfl, rfl⟩⟩)
  | _ =>
    cases hr
    exact .inr (.inr ⟨rfl, rfl, .inl rfl⟩)

theorem settle_tasks (w : World) (id : MessageId) (token : Nat) :
    (w.settle id token).tasks = w.tasks ∧ (w.settle id token).nextToken = w.nextToken := by
  unfold World.settle
  split <;> exact ⟨rfl, rfl⟩

theorem tasks_respond {o : Oracle} {c : Cmd} {w w' : World} {r : Reply c}
    (hr : respond o c w = some (r, w')) :
    ∀ t ∈ w'.tasks, t ∈ w.tasks ∨ c = .spawn t ∨
      ∃ p m, c = .trackSend p m ∧ t = .send p m w.nextToken := by
  intro t ht
  rcases respond_memory hr with ⟨p, m, rfl, rfl⟩ | ⟨id, token, rfl, rfl⟩ |
    ⟨-, -, he | ⟨t', rfl, he⟩⟩
  · rcases List.mem_append.mp ht with ht | ht
    · exact .inl ht
    · exact .inr (.inr ⟨p, m, rfl, List.mem_singleton.mp ht⟩)
  · rw [(settle_tasks w id token).1] at ht
    exact .inl ht
  · rw [he] at ht
    exact .inl ht
  · rw [he] at ht
    rcases List.mem_append.mp ht with ht | ht
    · exact .inl ht
    · exact .inr (.inl (by rw [List.mem_singleton.mp ht]))

theorem reply_known {o : Oracle} {c : Cmd} {w w' : World} {r : Reply c}
    (hs : Provenance w'.store) (hc : w'.store.Counted) (hr : respond o c w = some (r, w')) :
    ReplyKnown w'.store.enqueued c r := by
  unfold ReplyKnown
  split
  next id h =>
    simp only [respond, execRedis] at hr
    split at hr
    next =>
      split at hr <;> simp only [Option.some.injEq, Prod.mk.injEq, reduceCtorEq, false_and] at hr
      obtain ⟨hv, rfl⟩ := hr
      exact hs.known hc (Except.ok.inj hv)
    next => cases hr
  next a id h =>
    simp only [respond, execRedis] at hr
    split at hr
    next =>
      split at hr <;> simp only [Option.some.injEq, Prod.mk.injEq, reduceCtorEq, false_and] at hr
      obtain ⟨hv, rfl⟩ := hr
      exact hs.known hc (fetch_reply_stored hv)
    next => cases hr
  next => trivial

theorem enqueued_next {a : Choice Handler Oracle Disturbance}
    (hy : (engine svc weather).next a x = some y) :
    x.world.store.enqueued ⊆ y.world.store.enqueued := by
  rcases store_next hy with he | ⟨i, o, h, c, -, -, -, he⟩ | ⟨d, -, he⟩ <;> rw [he]
  · exact List.Subset.refl _
  · exact fun e he => enqueued_exec _ _ _ e he
  · cases d <;> exact List.Subset.refl _

/-- What the store keeps when a proper command is executed. -/
theorem Commissioned.exec (hx : Commissioned svc x) {i : Nat} {h : Handler} {c : RedisCmd}
    {id : MessageId} (hw : x.waiting i = some (h, .redis c)) (hf : c.Fresh id x.world.store) :
    Provenance (x.world.store.exec c id).2 ∧ (x.world.store.exec c id).2.Counted := by
  refine ⟨provenance_exec hx.provenance hf, counted_exec hx.counted ?_⟩
  rintro a rfl
  exact (hx.proper hw).2

theorem Commissioned.store_next (hx : Commissioned svc x) {a : Choice Handler Oracle Disturbance}
    (hy : (engine svc weather).next a x = some y) :
    Provenance y.world.store ∧ y.world.store.Counted := by
  rcases DeviceMessaging.store_next hy with he | ⟨i, o, h, c, -, hw, hf, he⟩ | ⟨d, -, he⟩ <;> rw [he]
  · exact ⟨hx.provenance, hx.counted⟩
  · exact hx.exec hw hf
  · exact ⟨provenance_disturb hx.provenance d, counted_disturb hx.counted d⟩

theorem Commissioned.turn (hx : Commissioned svc x) {i : Nat} {o : Oracle} {h : Handler} {c : Cmd}
    {r : Reply c} {w : World} (hw : x.waiting i = some (h, c))
    (hr : respond o c x.world = some (r, w)) : Provenance w.store ∧ w.store.Counted := by
  rcases respond_store hr with he | ⟨c', rfl, hf, he⟩ <;> rw [he]
  · exact ⟨hx.provenance, hx.counted⟩
  · exact hx.exec hw hf

theorem Commissioned.tasks_next (hx : Commissioned svc x) {a : Choice Handler Oracle Disturbance}
    (hy : (engine svc weather).next a x = some y) :
    ∀ t ∈ y.world.tasks, t.Proper y.world.store.enqueued := by
  have hle := enqueued_next hy
  have hkeep : ∀ t ∈ x.world.tasks, t.Proper y.world.store.enqueued :=
    fun t ht => (hx.tasks t ht).mono hle
  rcases System.next_cases hy with ⟨h, w, rfl, hw, rfl⟩ | ⟨i, o, h, c, k, r, w, rfl, ht, hr, rfl⟩ |
    ⟨d, w, rfl, hw, rfl⟩ | ⟨w, rfl, hw, rfl⟩
  · intro t ht
    simp only [engine, startHandler] at hw
    split at hw
    next =>
      split at hw <;> cases hw
      exact hkeep t (List.mem_of_mem_erase ht)
    next =>
      cases hw
      exact hkeep t ht
  · intro t ht'
    have hwait : x.waiting i = some (h, c) := by simp [Config.waiting, ht, Prog.pending]
    simp only [engine] at hr
    split at hr
    next =>
      rcases tasks_respond hr t ht' with ht' | rfl | ⟨p, m, -, rfl⟩
      · exact hkeep t ht'
      · exact Task.Proper.mono (hx.proper hwait) hle
      · trivial
    next => cases hr
  · intro t ht
    simp only [engine] at hw
    split at hw <;> cases hw
    exact hkeep t ht
  · intro t ht
    simp only [engine] at hw
    split at hw <;> cases hw
    cases ht

theorem startHandler_proper {h : Handler} {w w' : World} {g : Requests}
    (ht : ∀ t ∈ w.tasks, t.Proper g) (hw : startHandler h w = some w') :
    h.Proper g ∧ w'.store = w.store := by
  unfold startHandler at hw
  split at hw
  next t =>
    split at hw <;> cases hw
    next hmem => exact ⟨ht t hmem, rfl⟩
  next hne =>
    cases hw
    refine ⟨?_, rfl⟩
    cases h with
    | task t => exact absurd rfl (hne t)
    | _ => trivial

theorem Commissioned.next (hx : Commissioned svc x) {a : Choice Handler Oracle Disturbance}
    (hy : (engine svc weather).next a x = some y) : Commissioned svc y := by
  obtain ⟨hprov, hcount⟩ := hx.store_next hy
  refine ⟨hprov, hcount, hx.tasks_next hy, ?_⟩
  refine System.vouched_next hx.threads hy ?_ ?_ ?_
  · intro h w _ hw
    obtain ⟨hp, hs⟩ := startHandler_proper hx.tasks hw
    refine ⟨x.world.store.enqueued, ?_, hs ▸ List.Subset.refl _⟩
    exact Prog.wp_mono (handlerProgram_proper hp _ (List.Subset.refl _)) (fun _ _ _ => trivial)
      fun _ _ _ => trivial
  · exact fun h g hg => List.Subset.trans hg (enqueued_next hy)
  · intro i o h c r w g _ hw hr _ hg
    simp only [engine] at hr
    split at hr
    next =>
      obtain ⟨hprov', hcount'⟩ := hx.turn hw hr
      exact ⟨w.store.enqueued, ⟨List.Subset.trans hg (enqueued_respond hr),
        reply_known hprov' hcount' hr⟩, List.Subset.refl _⟩
    next => cases hr

/-- In every run the handlers act for requests that were made. -/
theorem reached_commissioned {ok : Process → Choice Handler Oracle Disturbance → Prop}
    (hx : Reached svc weather ok x) : Commissioned svc x :=
  hx.invariant commissioned_initial fun _ _ _ h _ hy => h.next hy

/-- The rule for invariants of the store that the commands of the service keep, if
not every command would. -/
theorem proper_invariant {I : Store → Prop} {p : RedisCmd → Store → Prop} (h0 : I .empty)
    (hexec : ∀ s c i, I s → Provenance s → Cmd.Proper svc s.enqueued (.redis c) → p c s →
      c.Fresh i s → I (s.exec c i).2)
    (hdisturb : ∀ s d, d.allowed weather → I s → I (s.disturb d))
    (hx : Reached svc weather (OnCommand p) x) : I x.world.store := by
  have hall : Commissioned svc x ∧ I x.world.store := by
    refine hx.invariant (I := fun x => Commissioned svc x ∧ I x.world.store)
      ⟨commissioned_initial, h0⟩ ?_
    rintro x y a ⟨hc, hI⟩ ha hy
    refine ⟨hc.next hy, ?_⟩
    rcases DeviceMessaging.store_next hy with he | ⟨i, o, h, c, rfl, hw, hf, he⟩ | ⟨d, rfl, he⟩ <;>
      rw [he]
    · exact hI
    · exact hexec _ c o.id hI hc.provenance (hc.proper hw) (ha i o h c rfl hw) hf
    · refine hdisturb _ d ?_ hI
      rcases System.next_cases hy with ⟨h, w, e, -⟩ | ⟨i, o, h, c, k, r, w, e, -⟩ |
        ⟨d', w, e, hw, -⟩ | ⟨w, e, -⟩ <;> cases e
      simp only [engine] at hw
      split at hw
      next hd => exact hd
      next => cases hw
  exact hall.2

end DeviceMessaging
