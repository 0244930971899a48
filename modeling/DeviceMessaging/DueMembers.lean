import DeviceMessaging.DrainTurns
import DeviceMessaging.SilentPolls
import Mathlib.Data.List.Perm.Subperm

namespace DeviceMessaging

open Effect

variable {svc : Service} {answers : VendorAnswers} {now : Nat} {w w' : World} {id : MessageId}
  {queue : StageQueue} {ids : List PluginId} {r : Except String Unit}

/-- The ids a drain at `now` lists. -/
def batch (q : QueueKey) (now : Nat) (w : World) : List MessageId :=
  (w.store.redis.queues q).due now queueScanBatchSize

/-- In a run over the listed members, the turn of each goes well in the state it finds. -/
def TurnsStand (svc : Service) (answers : VendorAnswers) (queue : StageQueue) (now : Nat)
    (listed : List MessageId) (w : World) (r : Except String Unit) (w' : World) : Prop :=
  ∀ done id rest w₁, listed = done ++ id :: rest →
    (drainMembersByName svc queue now done).Runs (drainExec now answers) w (.ok ()) w₁ →
    (drainMembersByName svc queue now (id :: rest)).Runs (drainExec now answers) w₁ r w' →
    Stands svc answers queue now w₁ id

section Turns

theorem runs_drainMembers_append {done listed : List MessageId} {w₁ : World}
    (hdone : (drainMembersByName svc queue now done).Runs (drainExec now answers) w (.ok ()) w₁)
    (hrest : (drainMembersByName svc queue now listed).Runs (drainExec now answers) w₁ r w') :
    (drainMembersByName svc queue now (done ++ listed)).Runs (drainExec now answers) w r w' := by
  induction done generalizing w with
  | nil =>
    obtain ⟨-, rfl⟩ := hdone
    exact hrest
  | cons id done ih =>
    rcases Prog.runs_of_bind hdone with ⟨a, w₂, hid, hdone⟩ | ⟨e, he, -⟩
    · exact Prog.runs_bind hid (ih hdone)
    · cases he

theorem TurnsStand.head {listed : List MessageId}
    (h : TurnsStand svc answers queue now (id :: listed) w r w')
    (hr : (drainMembersByName svc queue now (id :: listed)).Runs (drainExec now answers) w r w') :
    Stands svc answers queue now w id :=
  h [] id listed w rfl ⟨rfl, rfl⟩ hr

theorem TurnsStand.tail {listed : List MessageId} {w₁ : World}
    (h : TurnsStand svc answers queue now (id :: listed) w r w')
    (hid : (drainMemberByName svc queue now id).Runs (drainExec now answers) w (.ok ()) w₁) :
    TurnsStand svc answers queue now listed w₁ r w' := by
  intro done x rest w₂ he hdone hrest
  exact h (id :: done) x rest w₂ (by rw [he]; rfl) (Prog.runs_bind hid hdone) hrest

/-- The turns stand if the first does, and the rest do wherever it leads. -/
theorem TurnsStand.cons {listed : List MessageId} (hstands : Stands svc answers queue now w id)
    (h : ∀ w₁, (drainMemberByName svc queue now id).Runs (drainExec now answers) w (.ok ()) w₁ →
      (drainMembersByName svc queue now listed).Runs (drainExec now answers) w₁ r w' →
      TurnsStand svc answers queue now listed w₁ r w') :
    TurnsStand svc answers queue now (id :: listed) w r w' := by
  intro done x tail w₂ he hdone htail
  cases done with
  | nil =>
    obtain ⟨-, rfl⟩ := hdone
    cases he
    exact hstands
  | cons y done =>
    cases he
    rcases Prog.runs_of_bind hdone with ⟨a, w₁, hturn, hdone⟩ | ⟨e, he, -⟩
    · exact h w₁ hturn (runs_drainMembers_append hdone htail) done x tail w₂ rfl hdone htail
    · cases he

/-- A member still to come is due, or has no task left to be polled for. -/
def Awaited (q : QueueKey) (now : Nat) (listed : List MessageId) (w : World) : Prop :=
  ∀ id ∈ listed, Passed q id now w → Taskless id w

theorem Missed.awaited {q : QueueKey} {listed : List MessageId} (h : Missed q id w w')
    (hid : id ∉ listed) (hw : Awaited q now listed w) : Awaited q now listed w' := by
  intro x hx hpassed
  have hne : x ≠ id := fun he => hid (he ▸ hx)
  rcases h.others x hne with ⟨hhash, hscore⟩ | ⟨htaskless, -⟩
  · have hbefore : Passed q x now w := by
      intro k hk
      rw [← hscore q] at hk
      exact hpassed k hk
    intro hash hh
    rw [hhash] at hh
    exact hw x hx hbefore hash hh
  · exact htaskless

theorem Beside.passed {q : QueueKey} {x : MessageId} (h : Beside id w w') (hx : x ≠ id) :
    Passed q x now w' ↔ Passed q x now w := by
  unfold Passed
  rw [h.score x q hx]

theorem Beside.awaited {q : QueueKey} {listed : List MessageId} (h : Beside id w w')
    (hid : id ∉ listed) (hw : Awaited q now listed w) : Awaited q now listed w' := by
  intro x hx hpassed
  have hne : x ≠ id := fun he => hid (he ▸ hx)
  exact (h.taskless hne).mpr (hw x hx ((h.passed hne).mp hpassed))

end Turns

section Repeated

/-- Drains of a queue one after another, from the clock reading `now` on, all of whose turns
stand. -/
inductive Drains (svc : Service) (queue : StageQueue) (now : Nat) : Nat → World → World → Prop
  | none (w : World) : Drains svc queue now 0 w w
  | next {n t : Nat} {w w₁ w' : World} {answers : VendorAnswers} {r : Except String Unit}
    (hd : Drains svc queue now n w w₁) (ht : now ≤ t)
    (hr : (drainByName svc queue t).Runs (drainExec t answers) w₁ r w')
    (hstand : TurnsStand svc answers queue t (batch queue.key t w₁) w₁ r w') :
    Drains svc queue now (n + 1) w w'

end Repeated

section Example

/-- The vendors have nothing to say. -/
def silent : VendorAnswers :=
  fun _ _ => .ok none

end Example

end DeviceMessaging
