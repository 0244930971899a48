import DeviceMessaging.Guarded
import DeviceMessaging.HandlerCommands

namespace DeviceMessaging

open Effect Prog

/-- Where a drain stands with its re-entry guard. -/
inductive GuardStand
  | asked | inside | out
  deriving DecidableEq

/-- A row asks for the guard of its queue first, and gives it back last. -/
def guarding (q : QueueKey) : Monitor Cmd Reply GuardStand where
  allows row c := match row with
    | .asked => c = .beginDrain q
    | .inside => (∀ p, c ≠ .beginDrain p) ∧ ∀ p, c = .endDrain p → p = q
    | .out => False
  next _ c r row' := match c, r with
    | .beginDrain _, began => row' = if began then .inside else .out
    | .endDrain _, _ => row' = .out
    | _, _ => row' = .inside

/-- A program that never throws and is out of the guard when it ends. -/
abbrev Guards {α : Type} (q : QueueKey) (p : Engine α) (row : GuardStand) : Prop :=
  p.wp (guarding q) (fun _ row => row = .out) (fun _ _ => False) row

variable {svc : Service} {q : QueueKey} {α : Type}

/-- What applies an outcome to a message stays inside. -/
theorem guarding_inside {K : QueueKey → Prop} {own : Option StageName} {p : Engine α}
    (hp : p.Issues (Cmd.Applies svc K own)) :
    p.wp (guarding q) (fun _ row => row = .inside) (fun _ row => row = .inside) .inside := by
  induction p with
  | pure a => exact rfl
  | fail e => exact rfl
  | step c k ih =>
    have hc : c.Applies svc K own := (hp () trivial).1
    have hbegin : ∀ p, c ≠ .beginDrain p := fun p he => by
      subst he
      exact hc
    have hend : ∀ p, c ≠ .endDrain p := fun p he => by
      subst he
      exact hc
    refine ⟨⟨hbegin, fun p he => absurd he (hend p)⟩, fun r row' hr => ?_⟩
    obtain rfl : row' = .inside := by
      unfold guarding at hr
      cases c with
      | beginDrain p => exact absurd rfl (hbegin p)
      | endDrain p => exact absurd rfl (hend p)
      | _ => exact hr
    exact ih r (hp.reply r)

theorem drainRow_guards (queue : StageQueue) (now : Nat) :
    Guards queue.key (drainRow svc queue now) .asked := by
  have hdrain : (drain svc queue now).Issues
      (Cmd.Applies svc (fun _ => True) (some queue.stage)) :=
    drain_issues (fun _ _ => trivial) trivial now
  have hfinally : Guards queue.key (Prog.command (Cmd.endDrain queue.key) : Engine Unit) .inside := by
    refine ⟨⟨(fun _ he => by cases he), fun p he => by cases he; rfl⟩, fun _ row' hr => hr⟩
  unfold drainRow
  refine ⟨rfl, fun began row' hr => ?_⟩
  have hr : row' = if began then .inside else .out := hr
  subst hr
  cases began with
  | false => exact rfl
  | true =>
    change Guards queue.key (tryCatch (drain svc queue now) (fun _ => Pure.pure ()) >>= fun _ =>
      Prog.command (Cmd.endDrain queue.key)) .inside
    unfold Guards
    rw [wp_bind, wp_tryCatch]
    refine wp_mono (guarding_inside hdrain) (fun _ row h => ?_) fun _ row h => ?_
    · subst h
      exact hfinally
    · subst h
      exact hfinally

/-- Only a drain of the queue asks for its guard or gives it back. -/
theorem Handler.May.guard {h : Handler} {c : Cmd} (hm : h.May svc c)
    (hc : c = .beginDrain q ∨ c = .endDrain q) :
    ∃ queue now, h = .task (.drain queue now) ∧ queue.key = q := by
  have happlies : ¬ c.Applies svc h.Sources h.stage := by
    rcases hc with rfl | rfl <;> exact fun he => he
  have hm := hm.resolve_left happlies
  rcases hc with rfl | rfl
  all_goals
    cases h with
    | task t =>
      cases t with
      | drain queue now => exact ⟨queue, now, rfl, Eq.symm hm⟩
      | _ => exact hm.elim
    | _ => exact hm.elim

variable {weather : Weather} {x y : Process} {w w' : World}
  {ok : Process → Choice Handler Oracle Disturbance → Prop}

/-- Only the two guard commands touch the rows that drain. -/
theorem respond_draining {o : Oracle} {c : Cmd} {r : Reply c}
    (hr : respond o c w = some (r, w')) (hbegin : ∀ p, c ≠ .beginDrain p)
    (hend : ∀ p, c ≠ .endDrain p) : w'.draining = w.draining := by
  cases c with
  | redis c =>
    simp only [respond, execRedis] at hr
    split at hr
    next => split at hr <;> cases hr <;> rfl
    next => cases hr
  | mathRandom =>
    simp only [respond] at hr
    split at hr <;> cases hr
    rfl
  | beginDrain p => exact absurd rfl (hbegin p)
  | endDrain p => exact absurd rfl (hend p)
  | settleSend id token =>
    cases hr
    unfold World.settle
    split <;> rfl
  | _ =>
    cases hr
    rfl

/-- A drain of the queue is past its guard. -/
def Handler.Drains (h : Handler) (p : Engine Unit) (q : QueueKey) : Prop :=
  ∃ queue now c, h = .task (.drain queue now) ∧ queue.key = q ∧ p.pending = some c ∧
    ∀ k, c ≠ .beginDrain k

def Inside (x : Process) (j : Nat) (q : QueueKey) : Prop :=
  ∃ t, x.threads[j]? = some t ∧ t.1.Drains t.2 q

/-- Every drain under way follows its guard. -/
def Following (x : Process) : Prop :=
  ∀ t ∈ x.threads, ∀ queue now, t.1 = .task (.drain queue now) →
    ∃ row, Guards queue.key t.2 row

theorem drains_inside (queue : StageQueue) (now : Nat) {p : Engine Unit}
    (hp : Guards queue.key p .inside) (k : QueueKey) :
    Handler.Drains (.task (.drain queue now)) p k ↔ k = queue.key := by
  constructor
  · rintro ⟨queue', now', c, he, hk, -⟩
    cases he
    exact hk.symm
  · rintro rfl
    cases p with
    | pure a => cases hp
    | fail e => exact hp.elim
    | step c f => exact ⟨queue, now, c, rfl, rfl, rfl, hp.1.1⟩

theorem drains_asked (queue : StageQueue) (now : Nat) {p : Engine Unit}
    (hp : Guards queue.key p .asked) (k : QueueKey) :
    ¬ Handler.Drains (.task (.drain queue now)) p k := by
  rintro ⟨queue', now', c, he, hk, hc, hne⟩
  cases he
  cases p with
  | pure a => cases hc
  | fail e => cases hc
  | step c' f =>
    cases hc
    exact hne _ hp.1

theorem drains_out {h : Handler} {p : Engine Unit} (hp : Guards q p .out) (k : QueueKey) :
    ¬ h.Drains p k := by
  rintro ⟨queue', now', c, he, hk, hc, hne⟩
  cases p with
  | pure a => cases hc
  | fail e => cases hc
  | step c' f => exact hp.1.elim

/-- A turn of a thread takes a guard that is free, gives its own back, or neither. -/
theorem guard_turn {h : Handler} {o : Oracle} {c : Cmd} {k : Reply c → Engine Unit} {r : Reply c}
    (hrow : ∀ queue now, h = .task (.drain queue now) → ∃ row, Guards queue.key (.step c k) row)
    (hmay : h.May svc c) (hr : respond o c w = some (r, w'))
    (hin : ∀ q, h.Drains (.step c k) q → q ∈ w.draining) :
    Guarded.Step (· ∈ w.draining) (· ∈ w'.draining) (h.Drains (.step c k)) (h.Drains (k r)) ∧
      ∀ queue now, h = .task (.drain queue now) → ∃ row, Guards queue.key (k r) row := by
  by_cases hd : ∃ queue now, h = .task (.drain queue now)
  · obtain ⟨queue, now, rfl⟩ := hd
    obtain ⟨row, hallow, hnext⟩ := hrow queue now rfl
    cases row with
    | asked =>
      have hc : c = .beginDrain queue.key := hallow
      subst hc
      have hbefore := drains_asked (p := .step _ k) queue now ⟨hallow, hnext⟩
      simp only [respond] at hr
      split at hr
      next hheld =>
        -- another drain of the queue is under way
        cases hr
        have hout : Guards queue.key (k false) .out := hnext false .out rfl
        refine ⟨.keep (fun _ => Iff.rfl) fun p => ?_, fun queue' now' he => by cases he; exact ⟨_, hout⟩⟩
        exact ⟨fun hp => absurd hp (drains_out hout p), fun hp => absurd hp (hbefore p)⟩
      next hfree =>
        cases hr
        have hinside : Guards queue.key (k true) .inside := hnext true .inside rfl
        refine ⟨.take queue.key hfree (fun p => ?_) fun p => ?_,
          fun queue' now' he => by cases he; exact ⟨_, hinside⟩⟩
        · rw [MemberSet.mem_insert, or_comm]
        · rw [drains_inside queue now hinside p]
          exact ⟨.inr, fun hp => hp.resolve_left (hbefore p)⟩
    | inside =>
      obtain ⟨hbegin, hend⟩ := hallow
      have hbefore := drains_inside (p := .step c k) queue now
        ⟨⟨hbegin, hend⟩, hnext⟩
      by_cases he : ∃ p, c = .endDrain p
      · obtain ⟨p, rfl⟩ := he
        obtain rfl := hend p rfl
        cases hr
        have hout : Guards queue.key (k ()) .out := hnext () .out rfl
        refine ⟨.give queue.key ((hbefore _).mpr rfl) (fun p => MemberSet.mem_remove) fun p => ?_,
          fun queue' now' he => by cases he; exact ⟨_, hout⟩⟩
        rw [hbefore p]
        exact ⟨fun hp => absurd hp (drains_out hout p), fun hp => absurd hp.1 hp.2⟩
      · have hnone : ∀ p, c ≠ .endDrain p := fun p hp => he ⟨p, hp⟩
        have hinside : Guards queue.key (k r) .inside := by
          refine hnext r .inside ?_
          unfold guarding
          cases c with
          | beginDrain p => exact absurd rfl (hbegin p)
          | endDrain p => exact absurd rfl (hnone p)
          | _ => exact rfl
        refine ⟨.keep (fun p => ?_) fun p => ?_,
          fun queue' now' he => by cases he; exact ⟨_, hinside⟩⟩
        · rw [respond_draining hr hbegin hnone]
        · rw [hbefore p, drains_inside queue now hinside p]
    | out => exact hallow.elim
  · have hno : ∀ (p : Engine Unit) q, ¬ h.Drains p q := by
      rintro p q ⟨queue, now, -, rfl, -⟩
      exact hd ⟨queue, now, rfl⟩
    have hguard : ∀ q, c ≠ .beginDrain q ∧ c ≠ .endDrain q := by
      intro q
      constructor <;> intro he
      · obtain ⟨queue, now, hh, -⟩ := hmay.guard (q := q) (.inl he)
        exact hd ⟨queue, now, hh⟩
      · obtain ⟨queue, now, hh, -⟩ := hmay.guard (q := q) (.inr he)
        exact hd ⟨queue, now, hh⟩
    refine ⟨.keep (fun p => ?_) fun p => ?_, fun queue now he => absurd ⟨queue, now, he⟩ hd⟩
    · rw [respond_draining hr (fun q => (hguard q).1) fun q => (hguard q).2]
    · exact ⟨fun hp => absurd hp (hno _ p), fun hp => absurd hp (hno _ p)⟩

/-- The rows that are marked as draining are those a drain is under way in, and no more than
one is in each. -/
structure Guarding (x : Process) : Prop where
  rows : Following x
  guarded : Guarded (· ∈ x.world.draining) (Inside x)

theorem guarding_idle (hw : w.draining = .empty) : Guarding ⟨[], w⟩ where
  rows _ ht := by cases ht
  guarded := by
    refine .idle (fun q hq => ?_) ?_
    · have hq : q ∈ w.draining := hq
      rw [hw] at hq
      exact MemberSet.not_mem_empty hq
    · rintro j q ⟨t, ht, -⟩
      cases ht

theorem guarding_next (hx : Reached svc weather ok x) (hg : Guarding x)
    {a : Choice Handler Oracle Disturbance} (hy : (engine svc weather).next a x = some y) :
    Guarding y := by
  rcases System.next_cases hy with ⟨h, w, rfl, hw, rfl⟩ | ⟨i, o, h, c, k, r, w, rfl, ht, hr, rfl⟩ |
    ⟨d, w, rfl, hw, rfl⟩ | ⟨w, rfl, hw, rfl⟩
  · have hw : startHandler h x.world = some w := hw
    have hdraining : w.draining = x.world.draining := by
      unfold startHandler at hw
      split at hw
      next => split at hw <;> cases hw; rfl
      next => cases hw; rfl
    -- what has just started has not asked yet
    have hasked : ∀ queue now, h = .task (.drain queue now) →
        Guards queue.key (handlerProgram svc h) .asked := by
      rintro queue now rfl
      exact drainRow_guards queue now
    have hnew : ∀ q, ¬ h.Drains (handlerProgram svc h) q := by
      rintro q ⟨queue, now, c, rfl, hq⟩
      exact drains_asked queue now (hasked queue now rfl) q ⟨queue, now, c, rfl, hq⟩
    refine ⟨fun t ht queue now he => ?_, hg.guarded.congr (fun q => by rw [hdraining]) ?_⟩
    · rcases List.mem_append.mp ht with ht | ht
      · exact hg.rows t ht queue now he
      · obtain rfl := List.mem_singleton.mp ht
        exact ⟨_, hasked queue now he⟩
    · intro j q
      constructor
      · rintro ⟨t, ht, hq⟩
        rcases Nat.lt_or_ge j x.threads.length with hj | hj
        · rw [List.getElem?_append_left hj] at ht
          exact ⟨t, ht, hq⟩
        · rw [List.getElem?_append_right hj] at ht
          obtain rfl := List.eq_of_mem_singleton (List.mem_of_getElem? ht)
          exact absurd hq (hnew q)
      · rintro ⟨t, ht, hq⟩
        refine ⟨t, ?_, hq⟩
        rw [List.getElem?_append_left (List.getElem?_eq_some_iff.mp ht).1]
        exact ht
  · have hi := (List.getElem?_eq_some_iff.mp ht).1
    have hwait : x.waiting i = some (h, c) := by simp [Config.waiting, ht, Prog.pending]
    have hin : ∀ q, h.Drains (.step c k) q → q ∈ x.world.draining :=
      fun q hq => (hg.guarded.holder q).mpr ⟨i, _, ht, hq⟩
    simp only [engine] at hr
    split at hr
    next =>
      obtain ⟨hstep, hrow⟩ := guard_turn
        (hg.rows _ (List.mem_of_getElem? ht)) (reached_may hx hwait) hr hin
      refine ⟨fun t ht' queue now he => ?_, hg.guarded.turn (i := i) (fun j hj q => ?_) ?_⟩
      · rcases List.mem_or_eq_of_mem_set ht' with ht' | rfl
        · exact hg.rows t ht' queue now he
        · exact hrow queue now he
      · unfold Inside
        rw [List.getElem?_set_ne (Ne.symm hj)]
      · have hbefore : Inside x i = h.Drains (.step c k) := by
          funext q
          unfold Inside
          rw [ht]
          simp
        have hafter : Inside ⟨x.threads.set i (h, k r), w⟩ i = h.Drains (k r) := by
          funext q
          unfold Inside
          rw [List.getElem?_set_self hi]
          simp
        rw [hbefore, hafter]
        exact hstep
    next => cases hr
  · simp only [engine] at hw
    split at hw <;> cases hw
    exact ⟨hg.rows, hg.guarded⟩
  · simp only [engine] at hw
    split at hw <;> cases hw
    exact guarding_idle rfl

theorem reached_guarding (hx : Reached svc weather ok x) : Guarding x := by
  have hall : Reached svc weather ok x ∧ Guarding x := by
    refine hx.invariant (I := fun x => Reached svc weather ok x ∧ Guarding x)
      ⟨.init, guarding_idle rfl⟩ ?_
    rintro x y a ⟨hx, hg⟩ ha hy
    exact ⟨.step a hx ha hy, guarding_next hx hg hy⟩
  exact hall.2

theorem inside_of_waiting {j : Nat} {queue : StageQueue} {now : Nat} {c : Cmd}
    (hw : x.waiting j = some (.task (.drain queue now), c)) (hc : ∀ k, c ≠ .beginDrain k) :
    Inside x j queue.key := by
  obtain ⟨k, ht⟩ := Config.get_of_waiting hw
  exact ⟨_, ht, queue, now, c, rfl, rfl, rfl, hc⟩

/-- In every interleaving, whatever commands fail and whenever the process crashes: a queue
is marked as draining exactly while a drain of it is past its guard, and then one drain is.
So no two drains work on the members of one queue, and no failure locks a queue. -/
theorem reached_guarded (hx : Reached svc weather ok x) :
    (∀ q, q ∈ x.world.draining ↔ ∃ j queue now c, x.waiting j = some (.task (.drain queue now), c) ∧
      queue.key = q ∧ ∀ k, c ≠ .beginDrain k) ∧
    ∀ i j queue queue' now now' c c', x.waiting i = some (.task (.drain queue now), c) →
      x.waiting j = some (.task (.drain queue' now'), c') → queue.key = queue'.key →
      (∀ k, c ≠ .beginDrain k) → (∀ k, c' ≠ .beginDrain k) → i = j := by
  have hg := reached_guarding hx
  constructor
  · intro q
    rw [hg.guarded.holder q]
    constructor
    · rintro ⟨j, ⟨h, p⟩, ht, queue, now, c, rfl, hq, hp, hc⟩
      refine ⟨j, queue, now, c, ?_, hq, hc⟩
      rw [Config.waiting_of_get ht, hp]
      rfl
    · rintro ⟨j, queue, now, c, hw, rfl, hc⟩
      exact ⟨j, inside_of_waiting hw hc⟩
  · intro i j queue queue' now now' c c' hi hj hkey hc hc'
    have hj := inside_of_waiting hj hc'
    rw [← hkey] at hj
    exact hg.guarded.single i j queue.key (inside_of_waiting hi hc) hj

/-- Two ticks drain the `ns` row: the second drain finds the guard of the first. -/
theorem overlapping_ticks_guarded :
    ∃ x, Reached vendorService {} (fun _ _ => True) x ∧ QueueKey.ns ∈ x.world.draining ∧
      (x.waiting 2).isSome ∧ x.waiting 3 = none ∧ ∀ j queue now c,
        x.waiting j = some (.task (.drain queue now), c) → queue.key = .ns →
        (∀ k, c ≠ .beginDrain k) → j = 2 := by
  have hcheck : ∀ (x : Process) (a : Choice Handler Oracle Disturbance),
      (fun _ _ => true) x a = true → True := fun _ _ _ => trivial
  obtain ⟨x, hx, hrun⟩ := exists_reached vendorService {} (fun _ _ => true)
    (List.flatten [[.start .tick], turns 0 7 {}, [.start .tick], turns 1 7 {},
      [.start (.task (.drain ⟨.ns, .ns⟩ 0)), .turn 2 {},
       .start (.task (.drain ⟨.ns, .ns⟩ 0)), .turn 3 {}]])
    (fun x => decide (QueueKey.ns ∈ x.world.draining ∧
      ∀ j < x.threads.length, (x.waiting j).isSome = true → j = 2))
    hcheck (by decide +kernel)
  obtain ⟨hmem, honly⟩ := of_decide_eq_true hrun
  have hwaits : ∀ j h c, x.waiting j = some (h, c) → j = 2 := by
    intro j h c hw
    have hlt : j < x.threads.length := by
      by_contra hge
      have hnone : x.waiting j = none := by
        rw [Config.waiting, List.getElem?_eq_none (by omega)]
        rfl
      rw [hnone] at hw
      cases hw
    exact honly j hlt (by rw [hw]; rfl)
  have hguard := reached_guarded hx
  obtain ⟨i, queue, now, c, hw, hqueue, hpast⟩ := (hguard.1 .ns).mp hmem
  obtain rfl := hwaits i _ c hw
  refine ⟨x, hx, hmem, by rw [hw]; rfl, ?_, ?_⟩
  · cases hthree : x.waiting 3 with
    | none => rfl
    | some t => exact absurd (hwaits 3 t.1 t.2 hthree) (by omega)
  · intro j queue' now' c' hj hkey hc
    exact hguard.2 j 2 queue' queue now' now c' c hj hw (hkey.trans hqueue.symm) hc hpast

end DeviceMessaging
