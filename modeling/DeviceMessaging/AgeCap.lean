import DeviceMessaging.ConcurrencyCap
import DeviceMessaging.EffectRecord
import DeviceMessaging.TaskRows

namespace DeviceMessaging

open Effect

/-- The task was asked about since it entered its stage, or has been there for 48 hours. -/
def Load.HadChance (load : Load) : Prop :=
  ∃ task ∈ load.task,
    task.polled = true ∨ pullMaxMessageAgeMs ≤ (load.atMs : Int) - task.enteredAtMs

instance (load : Load) : Decidable load.HadChance :=
  inferInstanceAs (Decidable (∃ task ∈ load.task,
    task.polled = true ∨ pullMaxMessageAgeMs ≤ (load.atMs : Int) - task.enteredAtMs))

/-- The tasks of a run, how far its `awaitingTask` rows are, by their slots, and the members
that rows gave up without asking their vendor. -/
structure TaskLedger where
  tasks : MessageId → Option WaitingTask := fun _ => none
  rows : Nat → RowPhase := fun _ => .between
  givenUp : List Load := []

/-- The clock reading an `awaitingTask` row was started with. -/
def rowNow (h : Handler) : Option Nat :=
  match h with
  | .task (.drain queue now) => if queue.stage = .awaitingTask then some now else none
  | _ => none

def moves (a : MoveArgs) (r : Redis) : Bool :=
  match (moveMessageBetweenQueues a r).1 with
  | .ok moved => moved
  | .error _ => false

def isAwaitingTask (q : QueueKey) : Bool :=
  match q with
  | .awaitingTask _ => true
  | _ => false

/-- A task starts when its message is moved to `awaitingTask`, and is polled when its vendor
is asked for its id. -/
def tasksAfter (o : Oracle) (c : Cmd) (r : Redis) (tasks : MessageId → Option WaitingTask) :
    MessageId → Option WaitingTask :=
  match c with
  | .redis (.moveMessageBetweenQueues a) =>
    if isAwaitingTask a.destinationQueue ∧ o.fault ≠ some .refused ∧ moves a r then
      Function.update tasks a.messageId (some ⟨r.clock, a.deliveryQueueId, false⟩)
    else tasks
  | .fetchStatus _ message =>
    Function.update tasks message.id ((tasks message.id).map fun task =>
      if task.deliveryQueueId = message.deliveryQueueId then { task with polled := true } else task)
  | _ => tasks

/-- The member a row gives up with a command, when it has not asked its vendor. -/
def givenUpBy (o : Oracle) (c : Cmd) (phase : RowPhase) : List Load :=
  match phase with
  | .unasked load => if c.givesUp ∧ o.fault ≠ some .refused then [load] else []
  | _ => []

def noteTasks (x : Process) (a : Choice Handler Oracle Disturbance) (ledger : TaskLedger) :
    TaskLedger :=
  match a with
  | .start _ => { ledger with rows := Function.update ledger.rows x.threads.length .between }
  | .turn i o =>
    match x.waiting i with
    | none => ledger
    | some (h, c) =>
      let ledger' := { ledger with tasks := tasksAfter o c x.world.store.redis ledger.tasks }
      match rowNow h with
      | none => ledger'
      | some _ =>
        { ledger' with
          rows := Function.update ledger.rows i
            ((ledger.rows i).after ledger.tasks x.world.store.redis.clock c)
          givenUp := givenUpBy o c (ledger.rows i) ++ ledger.givenUp }
  | _ => ledger

/-- No row loads a member whose message is 48 hours old by its ULID, but whose task has
neither been polled nor waited for 48 hours. -/
def InTime (svc : Service) (x : Process) (ledger : TaskLedger)
    (a : Choice Handler Oracle Disturbance) : Prop :=
  ∀ i o h now id, a = .turn i o → x.waiting i = some (h, .redis (.hgetall id)) →
    rowNow h = some now → ledger.rows i = .between → Overaged svc now id →
    (⟨id, ledger.tasks id, x.world.store.redis.clock⟩ : Load).HadChance

variable {svc : Service} {weather : Weather} {x y : Process} {ledger : TaskLedger}

/-- A row that gives up unasked only members past the age cap, and whose member had a chance
if it is past it. -/
def RowKept (svc : Service) (rows : Nat → RowPhase) (j : Nat) (t : Handler × Engine Unit) : Prop :=
  ∀ now, rowNow t.1 = some now → InRow svc now t.2 (fun _ _ => True) (rows j) ∧
    ∀ load, rows j = .unasked load → Overaged svc now load.id → load.HadChance

structure AgeKept (svc : Service) (x : Process) (ledger : TaskLedger) : Prop where
  rows : ∀ (j : Nat) t, x.threads[j]? = some t → RowKept svc ledger.rows j t
  givenUp : ∀ load ∈ ledger.givenUp, load.HadChance

theorem after_unasked {tasks : MessageId → Option WaitingTask} {clock : Nat} {phase : RowPhase}
    {c : Cmd} {load : Load} (h : phase.after tasks clock c = .unasked load) :
    phase = .unasked load ∨
      phase = .between ∧ ∃ id, c = .redis (.hgetall id) ∧ load = ⟨id, tasks id, clock⟩ := by
  unfold RowPhase.after at h
  split at h
  next => cases h
  next hends =>
    split at h
    next id =>
      cases h
      exact .inr ⟨rfl, id, rfl, rfl⟩
    next => cases h
    next => exact .inl h

theorem drainRow_of_rowNow {h : Handler} {now : Nat} (hnow : rowNow h = some now) :
    ∃ queue : StageQueue, queue.stage = .awaitingTask ∧ h = .task (.drain queue now) := by
  unfold rowNow at hnow
  split at hnow
  next queue now' =>
    split at hnow
    next hq =>
      cases hnow
      exact ⟨queue, hq, rfl⟩
    next => cases hnow
  next => cases hnow

/-- What a turn makes of the slots and of what was given up. -/
theorem noteTasks_turn (ledger : TaskLedger) (o : Oracle) {i : Nat} {h : Handler} {c : Cmd}
    (hw : x.waiting i = some (h, c)) :
    (rowNow h = none ∧ (noteTasks x (.turn i o) ledger).rows = ledger.rows ∧
      (noteTasks x (.turn i o) ledger).givenUp = ledger.givenUp) ∨
    ∃ now, rowNow h = some now ∧ (noteTasks x (.turn i o) ledger).rows =
        Function.update ledger.rows i
          ((ledger.rows i).after ledger.tasks x.world.store.redis.clock c) ∧
      (noteTasks x (.turn i o) ledger).givenUp =
        givenUpBy o c (ledger.rows i) ++ ledger.givenUp := by
  simp only [noteTasks, hw]
  cases hnow : rowNow h with
  | none => exact .inl ⟨rfl, rfl, rfl⟩
  | some now => exact .inr ⟨now, rfl, rfl, rfl⟩

theorem AgeKept.rows_next (hx : AgeKept svc x ledger) {a : Choice Handler Oracle Disturbance}
    (ha : InTime svc x ledger a) (hy : (engine svc weather).next a x = some y) :
    ∀ (j : Nat) t, y.threads[j]? = some t → RowKept svc (noteTasks x a ledger).rows j t := by
  refine System.slots_next hx.rows hy (fun h w hstart _ => ?_) (fun j t hj hturn hcrash ht => ?_) ?_
  · subst hstart
    intro now hnow
    obtain ⟨queue, hq, rfl⟩ := drainRow_of_rowNow hnow
    have hrow : (noteTasks x (.start (.task (.drain queue now))) ledger).rows x.threads.length =
        .between := Function.update_self ..
    rw [hrow]
    exact ⟨row_drainRow hq, nofun⟩
  · have hsame : (noteTasks x a ledger).rows j = ledger.rows j := by
      have hlt := (List.getElem?_eq_some_iff.mp hj).1
      cases a with
      | start h => exact Function.update_of_ne (Nat.ne_of_lt hlt) ..
      | disturb d => rfl
      | crash => rfl
      | turn i o =>
        have hne : j ≠ i := by
          rintro rfl
          exact hturn o rfl
        cases hw : x.waiting i with
        | none => simp only [noteTasks, hw]
        | some hc =>
          obtain ⟨h, c⟩ := hc
          rcases noteTasks_turn ledger o hw with ⟨-, hrows, -⟩ | ⟨now, -, hrows, -⟩
          · rw [hrows]
          · rw [hrows]
            exact Function.update_of_ne hne ..
    intro now hnow
    rw [hsame]
    exact ht now hnow
  · rintro i o h c k r w rfl ht - hkept now hnow
    have hw : x.waiting i = some (h, c) := Config.waiting_of_get ht
    rcases noteTasks_turn ledger o hw with ⟨hnone, -⟩ | ⟨now', hnow', hrows, -⟩
    · rw [hnone] at hnow
      cases hnow
    · obtain ⟨hwp, hfair⟩ := hkept now hnow
      rw [hrows, Function.update_self]
      refine ⟨hwp.2 r _ ⟨_, _, rfl⟩, fun load hload hover => ?_⟩
      rcases after_unasked hload with hphase | ⟨hbetween, id, rfl, rfl⟩
      · exact hfair load hphase hover
      · exact ha i o h now id rfl hw hnow hbetween hover

end DeviceMessaging
