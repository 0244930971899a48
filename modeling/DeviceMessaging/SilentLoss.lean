import DeviceMessaging.EffectRecord
import DeviceMessaging.InHand
import DeviceMessaging.StoredEvents

namespace DeviceMessaging

open Effect

variable {svc : Service} {weather : Weather} {x y : Process} {history : List Redis}
  {id : MessageId}

/-- The keyspaces a run has been in. -/
def noteKeyspaces (x : Process) (_ : Choice Handler Oracle Disturbance) (history : List Redis) :
    List Redis :=
  x.world.store.redis :: history

/-- The runs of the process with the keyspaces before each step. -/
abbrev SeenRun (svc : Service) (weather : Weather) : Process → List Redis → Prop :=
  (engine svc weather).Recorded (fun _ _ _ => True) noteKeyspaces Process.initial []

/-- A terminal event of the message is stored, or was in an earlier keyspace. -/
def HeldSoFar (x : Process) (history : List Redis) (id : MessageId) : Prop :=
  ∃ r ∈ x.world.store.redis :: history, r.HoldsEnd id

theorem HeldSoFar.later (h : HeldSoFar x history id) (a : Choice Handler Oracle Disturbance) :
    HeldSoFar y (noteKeyspaces x a history) id := by
  obtain ⟨r, hr, hend⟩ := h
  exact ⟨r, List.mem_cons_of_mem _ hr, hend⟩

/-- What was handed over has been stored. -/
theorem seen_reported (hx : SeenRun svc weather x history) :
    ∀ id, x.world.store.Reported id → HeldSoFar x history id := by
  refine hx.invariant (I := fun x history => ∀ id, x.world.store.Reported id →
    HeldSoFar x history id) (fun id h => ?_) ?_
  · obtain ⟨_, hr, -⟩ := h
    cases hr
  · rintro x y a history hx - hy id hid
    rcases store_next hy with hs | ⟨i, o, h, c, -, -, -, hs⟩ | ⟨d, -, hs⟩ <;> rw [hs] at hid
    · exact (hx id hid).later a
    · rcases reported_exec hid with hid | ⟨record, now, rfl, ht⟩
      · exact (hx id hid).later a
      · have hend : y.world.store.redis.HoldsEnd id := by
          rw [hs]
          exact holdsEnd_handOver now _ ht
        exact ⟨_, List.mem_cons_self, hend⟩
    · exact (hx id hid).later a

/-- All handlers under watch of whether they hold the message. -/
def holding (id : MessageId) : Watch Cmd Reply Handler World Bool where
  monitor _ := holdWatch id
  ends _ _ := True
  holds _ _ _ := True

theorem reached_holding {ok : Process → Choice Handler Oracle Disturbance → Prop}
    (hx : Reached svc weather ok x) (id : MessageId) :
    ∀ t ∈ x.threads, (holding id).Vouches t x.world := by
  refine hx.invariant (I := fun x => ∀ t ∈ x.threads, (holding id).Vouches t x.world)
    (fun t ht => absurd ht List.not_mem_nil) ?_
  rintro x y a hx - hy
  refine System.vouched_next hx hy (fun h w _ _ => ?_) (fun _ _ _ => trivial) ?_
  · exact ⟨true, handlerProgram_holds h, trivial⟩
  · exact fun i o h c r w held _ _ _ _ _ => ⟨heldAfter id held c r, rfl, trivial⟩

/-- The program leaves the message as it is, unless it loads it again first. -/
def LeavesUntilLoaded (id : MessageId) (p : Engine Unit) : Prop :=
  p.wp (holdWatch id) (fun _ _ => True) (fun _ _ => True) false

/-- A terminal event that cannot be handed over: nothing has changed, and the handler leaves its
message as it is. -/
theorem refusal_leaves {ok : Process → Choice Handler Oracle Disturbance → Prop}
    (hx : Reached svc weather ok x) {i : Nat} {o : Oracle} {h : Handler}
    {record : WebhookStoredRecord} {now : Nat} (hfault : o.fault ≠ none)
    (hwait : x.waiting i = some (h, .redis (.webhookEnqueue record now)))
    (hid : record.terminalOf = some id) (hy : (engine svc weather).next (.turn i o) x = some y) :
    x.world.store.redis.SameFor y.world.store.redis id ∧
      ∃ p, y.threads[i]? = some (h, p) ∧ LeavesUntilLoaded id p := by
  obtain ⟨k, ht⟩ := Config.get_of_waiting hwait
  rcases System.next_cases hy with ⟨_, _, he, -⟩ | ⟨j, o', h', c, k', r, w, he, ht', hr, rfl⟩ |
    ⟨_, _, he, -⟩ | ⟨_, he, -⟩ <;> cases he
  rw [ht] at ht'
  cases ht'
  simp only [engine] at hr
  split at hr
  next =>
    obtain ⟨hsame, e, rfl⟩ : x.world.store.redis.SameFor w.store.redis id ∧
        ∃ e, r = .error e := by
      obtain ⟨-, ⟨ho, -, -⟩ | ⟨-, hv, hw⟩ | ⟨-, hv, hw⟩⟩ := execRedis_cases hr
      · exact absurd ho hfault
      · exact ⟨hw ▸ ⟨rfl, fun _ => Iff.rfl⟩, _, hv⟩
      · exact ⟨hw ▸ ⟨rfl, fun _ => Iff.rfl⟩, _, hv⟩
    refine ⟨hsame, k (.error e), ?_, ?_⟩
    · simp [(List.getElem?_eq_some_iff.mp ht).1]
    · obtain ⟨held, hwp, -⟩ := reached_holding hx id _ (List.mem_of_getElem? ht)
      have hlet : heldAfter id held (.redis (.webhookEnqueue record now)) (.error e) = false := by
        simp [heldAfter, hid]
      exact hwp.2 (.error e) false hlet.symm
  next => cases hr

/-- In every run, with faults and crashes at any command: a hash goes away by its expiry, by a
cancel that claimed it, or after a terminal event of it was stored, its payload and its pending
entry. And where the event cannot be stored, the message stays as it is, and so does the handler
leave it, unless it loads it again. -/
theorem reached_no_silent_disappearance (hw : svc.webhook = true)
    (hx : SeenRun svc weather x history) {a : Choice Handler Oracle Disturbance}
    (hy : (engine svc weather).next a x = some y) :
    (∀ id, x.world.store.redis.messages id ≠ none → y.world.store.redis.messages id = none →
      a = .disturb (.expireMessage id) ∨
      (∃ i o m c, a = .turn i o ∧ x.waiting i = some (.task (.cancelMessage m), c) ∧
        c.purges = some id) ∨
      ∃ r ∈ x.world.store.redis :: history, r.HoldsEnd id) ∧
    ∀ i o h record now id, a = .turn i o →
      x.waiting i = some (h, .redis (.webhookEnqueue record now)) →
      record.terminalOf = some id → o.fault ≠ none →
      x.world.store.redis.SameFor y.world.store.redis id ∧
        ∃ p, y.threads[i]? = some (h, p) ∧ LeavesUntilLoaded id p := by
  constructor
  · intro id hm hn
    rcases gone_reported hw hx.reachable hy hm hn with h | h | h
    · exact .inl h
    · exact .inr (.inl h)
    · exact .inr (.inr (seen_reported hx id h))
  · rintro i o h record now id rfl hwait hid hfault
    exact refusal_leaves hx.reachable hfault hwait hid hy

/-- A success purges its message, whose terminal event was stored by then. -/
theorem success_stored_before_purge :
    ∃ x history y, SeenRun vendorService ⟨true, true, true⟩ x history ∧
      (engine vendorService ⟨true, true, true⟩).next (.turn 4 {}) x = some y ∧
      x.world.store.redis.messages sampleId ≠ none ∧
      y.world.store.redis.messages sampleId = none ∧
      ∃ r ∈ x.world.store.redis :: history, r.HoldsEnd sampleId := by
  obtain ⟨x, hx, hp⟩ := exists_reached vendorService ⟨true, true, true⟩ (fun _ _ => true)
    (sampleSend ++ successIngress)
    (fun x => (x.world.store.redis.messages sampleId).isSome &&
      ((x.waiting 4).any fun t => !t.1.isCancel) &&
      (((engine vendorService ⟨true, true, true⟩).next (.turn 4 {}) x).any fun y =>
        (y.world.store.redis.messages sampleId).isNone))
    (fun _ _ _ => trivial) (by decide +kernel)
  obtain ⟨history, hx⟩ := hx.recorded noteKeyspaces []
  simp only [Bool.and_eq_true, Option.any_eq_true] at hp
  obtain ⟨⟨hm, t, ht, htc⟩, y, hy, hn⟩ := hp
  have hm : x.world.store.redis.messages sampleId ≠ none := Option.isSome_iff_ne_none.mp hm
  have hn : y.world.store.redis.messages sampleId = none := Option.isNone_iff_eq_none.mp hn
  refine ⟨x, history, y, hx, hy, hm, hn, ?_⟩
  rcases (reached_no_silent_disappearance rfl hx hy).1 _ hm hn with h | ⟨i, o, m, c, h, hw, -⟩ | h
  · cases h
  · cases h
    rw [ht] at hw
    cases hw
    cases htc
  · exact h

end DeviceMessaging
