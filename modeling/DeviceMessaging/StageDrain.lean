import DeviceMessaging.CalmDrain
import DeviceMessaging.DrainByName
import DeviceMessaging.OtherMembers
import DeviceMessaging.Tally
import Mathlib.Algebra.Order.Field.Basic
import Mathlib.Data.Rat.Floor
import Mathlib.Tactic.Positivity

namespace DeviceMessaging

open Effect

/-- What the vendors say of their tasks when they are polled. -/
abbrev VendorAnswers : Type :=
  PluginId → DeviceMessage → Except VendorError (Option ParsedIncomingEvent)

/-- Redis does what it is asked, the clock does not go back, and the vendors answer so. -/
def Served (now : Nat) (answers : VendorAnswers) (c : Cmd) (r : Reply c) : Prop :=
  match c, r with
  | .redis _, .error _ => False
  | .dateNow, t => now ≤ t
  | .fetchStatus pluginId message, answer => answer = answers pluginId message
  | _, _ => True

def drainExec (now : Nat) (answers : VendorAnswers) (w : World) (c : Cmd) (r : Reply c)
    (w' : World) : Prop :=
  calmExec everyPoll w c r w' ∧ Served now answers c r

/-- Nothing is known of the other messages' members but that they are as they were. -/
abbrev Beside (id : MessageId) (w w' : World) : Prop :=
  Redis.SameBeside id w.store.redis w'.store.redis

variable {svc : Service} {now : Nat} {answers : VendorAnswers} {w w' : World} {id : MessageId}
  {q : QueueKey} {plugin : DeliveryPlugin} {message : DeviceMessage} {hash : MessageHash}

section Rules

variable {α : Type} {E : String → World → Prop}

end Rules

/-- The messages and the queues are as they were. -/
structure SameMessages (w w' : World) : Prop where
  messages : w'.store.redis.messages = w.store.redis.messages
  queues : w'.store.redis.queues = w.store.redis.queues

theorem SameMessages.beside (h : SameMessages w w') (id : MessageId) : Beside id w w' where
  hash x _ := congrFun h.messages x
  score x q _ := by rw [h.queues]

/-- The message's hash is there and reads so. -/
def Stored (w : World) (message : DeviceMessage) : Prop :=
  ∃ hash, w.store.redis.messages message.id = some hash ∧
    deserializeMessage message.id hash = .ok message

theorem SameMessages.stored (h : SameMessages w w') (hs : Stored w message) :
    Stored w' message := by
  unfold Stored
  rw [h.messages]
  exact hs

/-- The message has no task to be polled for. -/
def Taskless (id : MessageId) (w : World) : Prop :=
  ∀ hash, w.store.redis.messages id = some hash → hash.deliveryQueueId = none

theorem Beside.taskless (h : Beside id w w') {x : MessageId} (hx : x ≠ id) :
    Taskless x w' ↔ Taskless x w := by
  unfold Taskless
  rw [h.hash x hx]

/-- The message has ended: its hash is gone, and it is gone from the swept queues. -/
structure Purged (id : MessageId) (swept : List QueueKey) (w w' : World) : Prop where
  beside : Beside id w w'
  hash : w'.store.redis.messages id = none
  gone : ∀ q ∈ swept, id ∉ w'.store.redis.queues q
  kept : ∀ q, q ∉ swept → w'.store.redis.queues q = w.store.redis.queues q

theorem Purged.taskless {swept : List QueueKey} (h : Purged id swept w w') : Taskless id w' := by
  intro hash hh
  rw [h.hash] at hh
  cases hh

section Waits

end Waits

/-- What an action leaves of the stage: a member it has done with is gone from the queue, and
no other message's member is touched. -/
structure Attended (q : QueueKey) (id : MessageId) (w : World) (out : StageOutcome) (w' : World) :
    Prop where
  beside : Beside id w w'
  gone : out = .movedOn ∨ out = .removed → id ∉ w'.store.redis.queues q

theorem Attended.waiting {out : StageOutcome} (h : out = .rescheduled ∨ out = .orphaned)
    (hb : Beside id w w') : Attended q id w out w' where
  beside := hb
  gone := by
    intro ho
    rcases h with rfl | rfl <;> rcases ho with ho | ho <;> cases ho

/-- Out of the queue, or due later than now. -/
def Passed (q : QueueKey) (id : MessageId) (now : Nat) (w : World) : Prop :=
  ∀ k, (w.store.redis.queues q).score id = some k → now < k

end DeviceMessaging
