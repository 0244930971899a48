import DeviceMessaging.HandlerCommands

namespace DeviceMessaging

open Effect Prog

/-- The drain of the retry row: what it has listed as due and not tried to requeue yet. -/
def listing (now : Nat) : Monitor Cmd Reply (List MessageId) where
  allows left c := match c with
    | .redis (.moveMessageBetweenQueues a) => a.messageId ∈ left
    | .redis (.getExpiredMessagesInQueue q t) => q = .retry ∧ t = now
    | _ => True
  next left c r left' := match c, r with
    | .redis (.getExpiredMessagesInQueue _ _), .ok ids => ids.Nodup ∧ left' = ids
    | .redis (.getExpiredMessagesInQueue _ _), .error _ => left' = []
    | .redis (.moveMessageBetweenQueues a), _ => left' = left.filter fun id => id ≠ a.messageId
    | _, _ => left' = left

/-- The row of retries. -/
def retryRow : StageQueue :=
  ⟨.retry, .retry⟩

variable {svc : Service} {now : Nat} {ids left : List MessageId} {id : MessageId} {α : Type}

abbrev InRetryRow (now : Nat) (p : Engine α) (Q : List MessageId → Prop) (left : List MessageId) :
    Prop :=
  p.wp (listing now) (fun _ => Q) (fun _ => Q) left

/-- A command that neither lists members nor moves one. -/
def Cmd.OffRow (c : Cmd) : Prop :=
  match c with
  | .redis (.moveMessageBetweenQueues _) => False
  | .redis (.getExpiredMessagesInQueue _ _) => False
  | _ => True

theorem offRow_keeps {P : List MessageId → Prop} {c : Cmd} (hc : c.OffRow) :
    (Prog.command c : Engine (Reply c)).Keeps (listing now) P := by
  intro left hP
  refine ⟨?_, fun r left' hr => ?_⟩
  · dsimp only [listing]
    split <;> first | exact hc.elim | trivial
  · have hsame : left' = left := by
      dsimp only [listing] at hr
      split at hr <;> first | exact hc.elim | exact hr
    rw [hsame]
    exact hP

theorem offRow_redis {P : List MessageId → Prop} {c : RedisCmd} (hc : (Cmd.redis c).OffRow) :
    (redis c).Keeps (listing now) P :=
  keeps_redis (offRow_keeps hc)

/-- The message that is loaded is the member. -/
theorem retryRow_member (id : MessageId) : (getMessageById id).wp (listing now)
    (fun message left' => left' = left ∧ ∀ m, message = some m → m.id = id)
    (fun _ left' => left' = left) left := by
  unfold getMessageById
  rw [wp_bind]
  refine wp_mono (offRow_redis (P := (· = left)) (c := .hgetall id) trivial left rfl)
    (fun raw left' hleft => ?_) fun _ _ h => h
  unfold readHash
  cases raw with
  | none => exact ⟨hleft, fun m he => by cases he⟩
  | some h =>
    simp only [readPicked, Option.map_some]
    cases hm : deserializeMessage id h with
    | error e => exact hleft
    | ok m =>
      refine ⟨hleft, fun m' he => ?_⟩
      cases he
      exact (deserializeMessage_fields hm).2.1

/-- The member has been tried. -/
def TriedOnce (left : List MessageId) (id : MessageId) (left' : List MessageId) : Prop :=
  left' = left.filter fun x => x ≠ id

theorem retryRow_requeue (hid : id ∈ left) (fromKey toKey : QueueKey) (priority : ParsedInt) :
    InRetryRow now (requeue id fromKey toKey priority) (TriedOnce left id) left := by
  have hadd : (do
      redis (.saddDistribute toKey)
      return true : Engine Bool).Keeps (listing now) (TriedOnce left id) :=
    keeps_bind (offRow_redis (c := .saddDistribute toKey) trivial) fun _ => keeps_pure true
  unfold requeue redis
  rw [InRetryRow, wp_bind, wp_bind, wp_command]
  refine ⟨hid, fun r left' hr => ?_⟩
  have htried : TriedOnce left id left' := by cases r <;> exact hr
  cases r with
  | error e => exact htried
  | ok moved =>
    cases moved with
    | false => exact htried
    | true => exact hadd left' htried

theorem retryRow_followUp {P : List MessageId → Prop} (message : DeviceMessage) (age : Int)
    (plugin : DeliveryPlugin) (outcome : StageOutcome) :
    (followUp svc retryRow id message age plugin outcome).Keeps (listing now) P := by
  cases outcome with
  | orphaned =>
    exact keeps_bind (offRow_redis (c := .removeMessageFromQueue _ _) trivial) fun _ => keeps_pure ()
  | rescheduled =>
    refine keeps_bind (p := rescheduleWaitMsFor .retry _) ?_ fun wait => ?_
    · exact keeps_bind (offRow_keeps (c := .mathRandom) trivial) fun _ => keeps_pure _
    · refine keeps_bind (offRow_keeps (c := .dateNow) trivial) fun t => ?_
      exact offRow_redis (c := .zaddXx _ _ _) trivial
  | movedOn => exact keeps_pure ()
  | removed => exact keeps_pure ()

/-- One member of the row is tried, or scrubbed, or it is what stops the drain. -/
theorem retryRow_drainMember (hid : id ∈ left) : InRetryRow now (drainMember svc retryRow now id)
    (fun left' => left' = left ∨ TriedOnce left id left') left := by
  have hscrub : InRetryRow now (do
      let _ ← redis (.removeMessageFromQueue retryRow.key id)
      return () : Engine Unit) (fun left' => left' = left ∨ TriedOnce left id left') left :=
    keeps_bind (offRow_redis (c := .removeMessageFromQueue _ _) trivial) (fun _ => keeps_pure ())
      left (.inl rfl)
  unfold drainMember
  rw [InRetryRow, wp_bind]
  refine wp_mono (retryRow_member id) (fun message left' hmessage => ?_) fun _ _ h => .inl h
  obtain ⟨rfl, hmessage⟩ := hmessage
  cases message with
  | none => exact hscrub
  | some m =>
    have hm := hmessage m rfl
    dsimp only
    split
    next => exact hscrub
    next plugin _ =>
      unfold decodeTime
      split
      next time _ =>
        rw [wp_bind, wp_pure, wp_bind]
        unfold act
        rw [wp_tryCatch]
        have haction : InRetryRow now (retryAction ⟨.retry, m, plugin, (now : Int) - time⟩)
            (TriedOnce left' id) left' := by
          unfold retryAction
          rw [InRetryRow, wp_bind, hm]
          exact retryRow_requeue hid .retry (plugin.initialQueueKey m.networkId m.device) m.priority
        have hafter : ∀ outcome left₁, TriedOnce left' id left₁ →
            InRetryRow now (followUp svc retryRow id m ((now : Int) - time) plugin outcome)
              (fun left₂ => left₂ = left' ∨ TriedOnce left' id left₂) left₁ :=
          fun outcome left₁ h => retryRow_followUp m _ plugin outcome left₁ (.inr h)
        refine wp_mono haction (fun outcome left₁ h => hafter outcome left₁ h) fun e left₁ h => ?_
        rw [wp_pure]
        exact hafter .rescheduled left₁ h
      next => exact .inl rfl

theorem retryRow_drainMembers (todo : List MessageId) (hnodup : todo.Nodup) :
    ∀ left : List MessageId, (∀ id ∈ todo, id ∈ left) →
      InRetryRow now (drainMembers svc retryRow now todo) (fun _ => True) left := by
  induction todo with
  | nil => exact fun _ _ => trivial
  | cons id todo ih =>
    intro left hleft
    obtain ⟨hnew, hnodup⟩ := List.nodup_cons.mp hnodup
    have hrest : ∀ x ∈ todo, x ∈ left := fun x hx => hleft x (List.mem_cons_of_mem id hx)
    unfold drainMembers
    rw [InRetryRow, wp_bind]
    refine wp_mono (retryRow_drainMember (hleft id List.mem_cons_self)) (fun _ left' h => ?_)
      fun _ _ _ => trivial
    rcases h with rfl | rfl
    · exact ih hnodup left' hrest
    · refine ih hnodup _ fun x hx => List.mem_filter.mpr ⟨hrest x hx, ?_⟩
      have hne : x ≠ id := fun he => hnew (he ▸ hx)
      exact decide_eq_true hne

/-- A drain of the row tries what it has listed, each member once. -/
theorem retryRow_drainRow (left : List MessageId) :
    InRetryRow now (drainRow svc retryRow now) (fun _ => True) left := by
  have hfinally : ∀ left, InRetryRow now (Prog.command (Cmd.endDrain retryRow.key) : Engine Unit)
      (fun _ => True) left := fun _ => ⟨trivial, fun _ _ _ => trivial⟩
  unfold drainRow
  refine ⟨trivial, fun began left _ => ?_⟩
  cases began with
  | false => trivial
  | true =>
    change InRetryRow now (tryCatch (drain svc retryRow now) (fun _ => Pure.pure ()) >>= fun _ =>
      Prog.command (Cmd.endDrain retryRow.key)) _ _
    have hdrain : InRetryRow now (drain svc retryRow now) (fun _ => True) left := by
      unfold drain redis
      rw [InRetryRow, wp_bind, wp_bind, wp_command]
      refine ⟨⟨rfl, rfl⟩, fun r left hr => ?_⟩
      cases r with
      | error e => trivial
      | ok due =>
        obtain ⟨hnodup, rfl⟩ := hr
        exact retryRow_drainMembers left hnodup left fun _ h => h
    rw [InRetryRow, wp_bind, wp_tryCatch]
    exact wp_mono hdrain (fun _ left _ => hfinally left) fun _ left _ => hfinally left

end DeviceMessaging
