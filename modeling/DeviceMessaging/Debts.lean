import DeviceMessaging.PlainPrograms

namespace DeviceMessaging

open Effect Prog

/-- What a handler owes after a command: the distribute set a requeued message's
ready queue, or the purge of a message it claimed. -/
inductive Debt
  | none
  | distribute (node : AdmissionNode)
  | purge (id : MessageId)

/-- The one handler that purges what it takes out of a queue. -/
def Handler.claims (h : Handler) : Bool :=
  match h with
  | .task (.cancelMessage _) => true
  | _ => false

/-- The command settles the debt, if there is one. -/
def Debt.SettledBy (d : Debt) (c : Cmd) : Prop :=
  match d with
  | .none => True
  | .distribute node => c = .redis (.saddDistribute (.ready node))
  | .purge id => ∃ m qs, c = .redis (.messageFullCleanup m qs) ∧ m.id = id

def Debt.after (claims : Bool) (c : Cmd) (r : Reply c) : Debt :=
  match c, r with
  | .redis (.moveMessageBetweenQueues a), .ok true =>
    match a.destinationQueue with
    | .ready node => .distribute node
    | _ => .none
  | .redis (.removeMessageFromQueue _ id), .ok true => if claims then .purge id else .none
  | _, _ => .none

/-- Programs that settle each debt with the next command. -/
def debts (claims : Bool) : Monitor Cmd Reply Debt where
  allows d c := d.SettledBy c
  next _ c r d := d = Debt.after claims c r

/-- The program starts and ends without a debt. -/
abbrev Solvent {α : Type} (claims : Bool) (p : Engine α) : Prop :=
  p.Keeps (debts claims) (· = .none)

variable {svc : Service} {plugin : DeliveryPlugin}

theorem solvent_command {claims : Bool} {c : Cmd} (hc : ∀ r, Debt.after claims c r = .none) :
    Solvent claims (Prog.command c : Engine (Reply c)) := by
  rintro d rfl
  exact ⟨trivial, fun r d' hd => hd.trans (hc r)⟩

theorem after_plain {c : Cmd} (hc : c.Plain) (r : Reply c) : Debt.after false c r = .none := by
  unfold Debt.after
  split
  next a =>
    split
    next node hn => exact absurd hn (hc node)
    next => rfl
  next => rfl
  next => rfl

theorem requeue_solvent (id : MessageId) (fromKey toKey : QueueKey) (priority : ParsedInt) :
    Solvent false (requeue id fromKey toKey priority) := by
  rintro d rfl
  unfold requeue redis
  simp only [wp_bind, wp_command]
  refine ⟨trivial, fun r d hd => ?_⟩
  subst hd
  cases r with
  | error e => rfl
  | ok moved =>
    cases moved with
    | false => rfl
    | true =>
      simp only [wp_pure, ↓reduceIte, wp_bind, wp_command]
      refine ⟨?_, fun r d hd => ?_⟩
      · cases toKey <;> first | rfl | trivial
      · subst hd
        cases r <;> rfl

theorem sweep_solvent (key : AdmissionNode) :
    Solvent false (validateAndCleanConcurrencyRateLimit key) :=
  sweep_keeps (quiet_of_plain fun _ hc => solvent_command (after_plain hc))
    (fun _ _ => solvent_command fun _ => rfl) key

theorem cancelOneMessage_solvent (message : DeviceMessage) :
    Solvent true (cancelOneMessage svc message) := by
  rintro d rfl
  unfold cancelOneMessage
  split
  next => rfl
  next =>
    split
    next => rfl
    next plugin _ =>
      unfold claimFromQueue purge redis
      simp only [wp_bind, wp_command]
      refine ⟨trivial, fun r d hd => ?_⟩
      subst hd
      cases r with
      | error e => rfl
      | ok claimed =>
        cases claimed with
        | false => rfl
        | true =>
          simp only [wp_pure, ↓reduceIte, wp_bind, wp_command]
          refine ⟨⟨message, _, rfl, rfl⟩, fun r d hd => ?_⟩
          subst hd
          cases r <;> rfl

theorem handlerProgram_solvent (h : Handler) : Solvent h.claims (handlerProgram svc h) := by
  by_cases hcancel : ∃ m, h = .task (.cancelMessage m)
  · obtain ⟨m, rfl⟩ := hcancel
    exact keeps_bind (cancelOneMessage_solvent m) fun _ => keeps_pure _
  · have hclaims : h.claims = false := by
      unfold Handler.claims
      split
      next m => exact absurd ⟨m, rfl⟩ hcancel
      next => rfl
    have hplain : ∀ c : Cmd, c.Plain → Solvent false (Prog.command c : Engine (Reply c)) :=
      fun c hc => solvent_command (after_plain hc)
    rw [hclaims]
    exact handlerProgram_keeps hplain
      (fun id key priority => requeue_solvent id .retry key priority) sweep_solvent
      (fun _ _ => solvent_command fun _ => rfl)
      (fun _ _ => pickAndTrack_keeps hplain (fun _ _ => solvent_command fun _ => rfl)
        (fun _ _ => solvent_command fun _ => rfl))
      (fun _ m token => trackedSend_keeps hplain (fun _ _ => solvent_command fun _ => rfl)
        (fun _ _ => solvent_command fun _ => rfl) (fun _ _ => solvent_command fun _ => rfl) m token)
      fun m hm => hcancel ⟨m, hm⟩

/-- All handlers under watch of their debts. -/
def bookkeeping : Watch Cmd Reply Handler World Debt where
  monitor h := debts h.claims
  ends _ d := d = .none
  holds _ _ _ := True

/-- Every handler has settled its debts, or does so with its next command. -/
def Booked (x : Process) : Prop :=
  ∀ t ∈ x.threads, bookkeeping.Vouches t x.world

variable {weather : Weather} {x y : Process}

theorem booked_next {a : Choice Handler Oracle Disturbance} (hx : Booked x)
    (hy : (engine svc weather).next a x = some y) : Booked y := by
  refine System.vouched_next hx hy (fun h w _ _ => ?_) (fun _ _ _ => trivial) ?_
  · exact ⟨.none, handlerProgram_solvent h .none rfl, trivial⟩
  · exact fun i o h c r w d _ _ _ _ _ => ⟨Debt.after h.claims c r, rfl, trivial⟩

theorem reached_booked {ok : Process → Choice Handler Oracle Disturbance → Prop}
    (hx : Reached svc weather ok x) : Booked x := by
  refine hx.invariant (I := Booked) (fun t ht => ?_) fun _ _ _ hx _ hy => booked_next hx hy
  cases ht

/-- A debt is settled by the command the handler waits on after its turn. -/
theorem Booked.settles (hx : Booked x) {i : Nat} {o : Oracle}
    (hy : (engine svc weather).next (.turn i o) x = some y) :
    ∃ h c r, x.waiting i = some (h, c) ∧ respond o c x.world = some (r, y.world) ∧
      (Debt.after h.claims c r = .none ∨
        ∃ c', y.waiting i = some (h, c') ∧ (Debt.after h.claims c r).SettledBy c') := by
  obtain ⟨h, c, k, r, w, ht, hr, rfl, hwait⟩ := System.waiting_turn hy
  have hwx : x.waiting i = some (h, c) := by simp [Config.waiting, ht, Prog.pending]
  simp only [engine] at hr
  split at hr
  next =>
    refine ⟨h, c, r, hwx, hr, ?_⟩
    obtain ⟨d, hwp, -⟩ := hx _ (List.mem_of_getElem? ht)
    have hk := hwp.2 r _ rfl
    cases hp : k r with
    | pure a =>
      rw [hp] at hk
      exact .inl hk
    | fail e =>
      rw [hp] at hk
      exact .inl hk
    | step c' k' =>
      rw [hp] at hk hwait
      exact .inr ⟨c', hwait, hk.1⟩
  next => cases hr

end DeviceMessaging
