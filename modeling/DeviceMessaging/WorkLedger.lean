import DeviceMessaging.EffectRecord
import DeviceMessaging.HandlerWork
import DeviceMessaging.ProperRuns
import DeviceMessaging.SinglePlacement

namespace DeviceMessaging

open Effect

/-- Who has a message between its pick and the end of its send: the pass in a slot, until it
registers the send, or the send registered under a token. -/
inductive Holder
  | window (slot : Nat)
  | tracked (token : Nat)
  deriving DecidableEq

/-- How the handlers of a run stand to the messages, who holds each picked one, and which ones
a cancel has claimed and purged. -/
structure WorkLedger where
  work : Nat → Work := fun _ => .free
  holder : MessageId → Option Holder := fun _ => none
  claimed : List MessageId := []
  cancelled : List MessageId := []

/-- The holders after a command: a pick and a registration name one, and a send that has the
message in hand no more lets go. -/
def WorkLedger.hold (ledger : WorkLedger) (slot token : Nat) (c : Cmd) (before after : Work) :
    MessageId → Option Holder :=
  match c, before, after with
  | .trackSend _ message, _, _ =>
    Function.update ledger.holder message.id (some (.tracked token))
  | .redis (.fetchNextMessageInQueueAndMove _), _, .picked id =>
    Function.update ledger.holder id (some (.window slot))
  | _, .sending id, after =>
    if after = .sending id then ledger.holder else Function.update ledger.holder id none
  | _, _, _ => ledger.holder

/-- What a command adds to the claims. -/
def claims (after : Work) : List MessageId :=
  match after with
  | .claimed id => [id]
  | _ => []

/-- The message a cancel is done with. -/
def cancels (c : Cmd) (before : Work) : List MessageId :=
  match c, before with
  | .redis (.messageFullCleanup message _), .claimed _ => [message.id]
  | _, _ => []

theorem mem_cancels {c : Cmd} {g : Work} {id : MessageId} (h : id ∈ cancels c g) :
    ∃ message qs m, c = .redis (.messageFullCleanup message qs) ∧ g = .claimed m ∧
      id = message.id := by
  unfold cancels at h
  split at h
  next => exact ⟨_, _, _, rfl, rfl, List.mem_singleton.mp h⟩
  next => cases h

/-- The ledger after a command and its reply. -/
def WorkLedger.reply (svc : Service) (ledger : WorkLedger) (slot token : Nat) (h : Handler) (c : Cmd)
    (r : Reply c) : WorkLedger where
  work := Function.update ledger.work slot ((ledger.work slot).after svc h c r)
  holder := ledger.hold slot token c (ledger.work slot) ((ledger.work slot).after svc h c r)
  claimed := claims ((ledger.work slot).after svc h c r) ++ ledger.claimed
  cancelled := cancels c (ledger.work slot) ++ ledger.cancelled

def noteWork (svc : Service) (x : Process) (a : Choice Handler Oracle Disturbance)
    (ledger : WorkLedger) : WorkLedger :=
  match a with
  | .start h => { ledger with work := Function.update ledger.work x.threads.length h.work }
  | .turn i o =>
    match x.waiting i with
    | some (h, c) =>
      match respond o c x.world with
      | some (r, _) => ledger.reply svc i x.world.nextToken h c r
      | none => ledger
    | none => ledger
  | _ => ledger

/-- The runs of one process without crashes, failing commands or expiry, with their ledger. -/
abbrev Worked (svc : Service)
    (ok : Process → WorkLedger → Choice Handler Oracle Disturbance → Prop) :
    Process → WorkLedger → Prop :=
  (engine svc {}).Recorded ok (noteWork svc) Process.initial {}

variable {svc : Service} {x y : Process} {ledger : WorkLedger}
  {a : Choice Handler Oracle Disturbance}

/-- One choice of such a run: a handler starts, a command is executed and replied to, or time
passes. -/
inductive WorkStep (svc : Service) (x : Process) (ledger : WorkLedger) :
    Choice Handler Oracle Disturbance → Process → WorkLedger → Prop
  | start (h : Handler) (w : World) (hw : startHandler h x.world = some w) :
    WorkStep svc x ledger (.start h) ⟨x.threads ++ [(h, handlerProgram svc h)], w⟩
      { ledger with work := Function.update ledger.work x.threads.length h.work }
  | turn {i : Nat} {o : Oracle} {h : Handler} {c : Cmd} {k : Reply c → Engine Unit} {r : Reply c}
    {w : World} (ht : x.threads[i]? = some (h, .step c k)) (ho : o.fault = none)
    (hr : respond o c x.world = some (r, w)) :
    WorkStep svc x ledger (.turn i o) ⟨x.threads.set i (h, k r), w⟩
      (ledger.reply svc i x.world.nextToken h c r)
  | elapse (ms : Nat) :
    WorkStep svc x ledger (.disturb (.elapse ms))
      ⟨x.threads, { x.world with store := x.world.store.disturb (.elapse ms) }⟩ ledger

theorem noteWork_turn {i : Nat} {o : Oracle} {h : Handler} {c : Cmd} {k : Reply c → Engine Unit}
    {r : Reply c} {w : World} (ht : x.threads[i]? = some (h, .step c k))
    (hr : respond o c x.world = some (r, w)) :
    noteWork svc x (.turn i o) ledger = ledger.reply svc i x.world.nextToken h c r := by
  have hwait : x.waiting i = some (h, c) := Config.waiting_of_get ht
  unfold noteWork
  simp only [hwait, hr]

theorem workStep_of_next (hy : (engine svc {}).next a x = some y) :
    WorkStep svc x ledger a y (noteWork svc x a ledger) := by
  rcases System.next_cases hy with ⟨h, w, rfl, hw, rfl⟩ | ⟨i, o, h, c, k, r, w, rfl, ht, hr, rfl⟩ |
    ⟨d, w, rfl, hw, rfl⟩ | ⟨w, rfl, hw, rfl⟩
  · exact .start h w hw
  · simp only [engine] at hr
    split at hr
    next hallowed =>
      have ho : o.fault = none := by
        unfold oracleAllowed at hallowed
        simpa using hallowed
      rw [noteWork_turn ht hr]
      exact .turn ht ho hr
    next => cases hr
  · simp only [engine] at hw
    split at hw
    next hallowed =>
      cases hw
      cases d with
      | elapse ms => exact .elapse ms
      | _ => cases hallowed
    next => cases hw
  · cases hw

/-- Every handler is watched where the ledger says it is, and every task fits. -/
structure Watched (svc : Service) (x : Process) (ledger : WorkLedger) : Prop where
  slots : ∀ (j : Nat) t, x.threads[j]? = some t →
    t.1.Fits ∧ Works svc t.1 t.2 (ledger.work j)
  tasks : ∀ t ∈ x.world.tasks, t.Fits

theorem Watched.allows {i : Nat} {h : Handler} {c : Cmd} (hx : Watched svc x ledger)
    (hw : x.waiting i = some (h, c)) : (works svc h).allows (ledger.work i) c := by
  obtain ⟨k, ht⟩ := Config.get_of_waiting hw
  exact (hx.slots i _ ht).2.1

theorem startHandler_cases {h : Handler} {w w' : World} (hw : startHandler h w = some w') :
    (∃ t ∈ w.tasks, h = .task t ∧ w' = { w with tasks := w.tasks.erase t }) ∨
      ((∀ t, h ≠ .task t) ∧ w' = w) := by
  unfold startHandler at hw
  split at hw
  next t =>
    split at hw
    next hmem =>
      cases hw
      exact .inl ⟨t, hmem, rfl, rfl⟩
    next => cases hw
  next hne =>
    cases hw
    exact .inr ⟨hne, rfl⟩

theorem startHandler_fits {h : Handler} {w w' : World} (ht : ∀ t ∈ w.tasks, t.Fits)
    (hw : startHandler h w = some w') : h.Fits := by
  rcases startHandler_cases hw with ⟨t, hmem, rfl, -⟩ | ⟨hne, -⟩
  · exact ht t hmem
  · cases h with
    | task t => exact absurd rfl (hne t)
    | _ => trivial

/-- The work of a slot changes at its turn, and a new slot starts with that of its handler. -/
theorem noteWork_others {j : Nat} {t : Handler × Engine Unit} (ht : x.threads[j]? = some t)
    (hne : ∀ o, a ≠ .turn j o) : (noteWork svc x a ledger).work j = ledger.work j := by
  have hlt := (List.getElem?_eq_some_iff.mp ht).1
  cases a with
  | start h =>
    have hj : j ≠ x.threads.length := by omega
    exact Function.update_of_ne hj _ _
  | turn i o =>
    have hj : j ≠ i := by
      rintro rfl
      exact hne o rfl
    unfold noteWork
    dsimp only
    split
    next =>
      split
      next => exact Function.update_of_ne hj _ _
      next => rfl
    next => rfl
  | disturb d => rfl
  | crash => rfl

theorem watched_initial : Watched svc Process.initial {} where
  slots _ _ h := by cases h
  tasks _ h := by cases h

theorem Watched.next (hx : Watched svc x ledger) (hy : (engine svc {}).next a x = some y) :
    Watched svc y (noteWork svc x a ledger) := by
  have hs : WorkStep svc x ledger a y (noteWork svc x a ledger) := workStep_of_next hy
  generalize hnote : noteWork svc x a ledger = ledger' at hs
  refine ⟨?_, ?_⟩
  · rw [← hnote]
    refine System.slots_next hx.slots hy ?_ ?_ ?_
    · rintro h w rfl hw
      have hfits := startHandler_fits hx.tasks hw
      have hwork : (noteWork svc x (.start h) ledger).work x.threads.length = h.work :=
        Function.update_self _ _ _
      rw [hwork]
      exact ⟨hfits, handlerProgram_works hfits⟩
    · intro j t ht hne _ hp
      rw [noteWork_others ht hne]
      exact hp
    · rintro i o h c k r w rfl ht hr ⟨hfits, hp⟩
      have hr' : respond o c x.world = some (r, w) := by
        simp only [engine] at hr
        split at hr
        next => exact hr
        next => cases hr
      refine ⟨hfits, hp.2 r _ ?_⟩
      rw [noteWork_turn ht hr']
      exact Function.update_self _ _ _
  · cases hs with
    | start h w hw =>
      rcases startHandler_cases hw with ⟨t, -, -, rfl⟩ | ⟨-, rfl⟩
      · exact fun t' ht' => hx.tasks t' (List.mem_of_mem_erase ht')
      · exact hx.tasks
    | turn ht ho hr =>
      intro t ht'
      have hallows := hx.allows (Config.waiting_of_get ht)
      rcases tasks_respond hr t ht' with ht' | rfl | ⟨p, m, -, rfl⟩
      · exact hx.tasks t ht'
      · exact hallows.1
      · trivial
    | elapse ms => exact hx.tasks

/-- What a slot that waits was at before: the same, or it has just started, or it has just
had its turn. -/
theorem WorkStep.waits {ledger' : WorkLedger} {j : Nat} {h : Handler} {c : Cmd}
    (hs : WorkStep svc x ledger a y ledger') (hj : y.waiting j = some (h, c)) :
    (x.waiting j = some (h, c) ∧ ledger'.work j = ledger.work j ∧ ∀ o, a ≠ .turn j o) ∨
    (∃ w, a = .start h ∧ startHandler h x.world = some w ∧ ledger'.work j = h.work) ∨
    ∃ o b r w, a = .turn j o ∧ x.waiting j = some (h, b) ∧ o.fault = none ∧
      respond o b x.world = some (r, w) ∧ ledger'.work j = (ledger.work j).after svc h b r := by
  obtain ⟨k', ht⟩ := Config.get_of_waiting hj
  cases hs with
  | start h' w hw =>
    by_cases hlt : j < x.threads.length
    · rw [List.getElem?_append_left hlt] at ht
      exact .inl ⟨Config.waiting_of_get ht, Function.update_of_ne (Nat.ne_of_lt hlt) _ _,
        fun _ => by simp⟩
    · rw [List.getElem?_append_right (Nat.le_of_not_lt hlt)] at ht
      have hlt' := (List.getElem?_eq_some_iff.mp ht).1
      have hlast : j = x.threads.length := by
        rw [List.length_singleton] at hlt'
        omega
      obtain ⟨rfl, -⟩ := Prod.mk.inj (List.eq_of_mem_singleton (List.mem_of_getElem? ht))
      rw [hlast]
      exact .inr (.inl ⟨w, rfl, hw, Function.update_self _ _ _⟩)
  | @turn i o h' b k r w ht' ho hr =>
    by_cases hij : i = j
    · subst hij
      rw [List.getElem?_set_self (List.getElem?_eq_some_iff.mp ht').1] at ht
      obtain ⟨rfl, -⟩ := Prod.mk.inj (Option.some.inj ht)
      exact .inr (.inr ⟨o, b, r, w, rfl, Config.waiting_of_get ht', ho, hr,
        Function.update_self _ _ _⟩)
    · rw [List.getElem?_set_ne hij] at ht
      exact .inl ⟨Config.waiting_of_get ht, Function.update_of_ne (fun he => hij he.symm) _ _,
        fun o' he => hij (Choice.turn.inj he).1⟩
  | elapse ms => exact .inl ⟨Config.waiting_of_get ht, rfl, fun _ => by simp⟩

/-- A followed schedule whose retries find their claim standing is a run with every message in
one queue. -/
theorem placed_of_follow {as : List (Choice Handler Oracle Disturbance)}
    {ok : Process → WorkLedger → Choice Handler Oracle Disturbance → Prop}
    {check : Process → WorkLedger → Choice Handler Oracle Disturbance → Bool}
    (hc : ∀ x ledger a, x.world.store.SinglePlacement → check x ledger a = true → ok x ledger a)
    (hy : (engine svc {}).followRecorded
      (fun x ledger a => checkCommand claimStandsCheck x a && check x ledger a) (noteWork svc) as
      Process.initial {} = some (y, ledger)) : Worked svc ok y ledger := by
  have hrun : (engine svc {}).Recorded
      (fun x ledger a => (checkCommand claimStandsCheck x a && check x ledger a) = true)
      (noteWork svc) Process.initial {} y ledger := .of_follow (fun _ _ _ h => h) .init hy
  refine hrun.strengthen (I := fun x _ => Placement x.world.store) placement_empty ?_
    fun x ledger a hp h => hc x ledger a hp.single (Bool.and_eq_true_iff.mp h).2
  intro x y a ledger hp hcheck hy
  have hstands : OnCommand ClaimStands x a :=
    onCommand_of_check claimStandsCheck_sound x a (Bool.and_eq_true_iff.mp hcheck).1
  rcases store_next hy with he | ⟨i, o, h, c, rfl, hw, hf, he⟩ | ⟨d, -, he⟩ <;> rw [he]
  · exact hp
  · exact placement_exec hp (hstands i o h c rfl hw) hf
  · exact placement_disturb d hp

end DeviceMessaging
