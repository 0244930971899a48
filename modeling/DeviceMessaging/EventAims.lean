import DeviceMessaging.AppliedEvents
import DeviceMessaging.OtherMembers

namespace DeviceMessaging

open Effect

variable {svc : Service} {plugin : DeliveryPlugin} {A : Application} {α : Type}

/-- From one store to another a message keeps its hash, its place and score in every queue,
and the terminal events told of it. -/
structure Store.LeftAlone (s s' : Store) (m : MessageId) : Prop where
  hash : s'.redis.messages m = s.redis.messages m
  score : ∀ q, (s'.redis.queues q).score m = (s.redis.queues q).score m
  outcomes : s'.outcomes m = s.outcomes m

theorem Store.LeftAlone.refl {s : Store} {m : MessageId} : s.LeftAlone s m :=
  ⟨rfl, fun _ => rfl, rfl⟩

/-- The command leaves the message alone, however it fares. -/
def Cmd.LeavesAlone (c : Cmd) (m : MessageId) : Prop :=
  ∀ o w r w', respond o c w = some (r, w') → w.store.LeftAlone w'.store m

/-- What is read that decides what an event does to a message: that it is there when the event
tells of a success; that a failure is final for it, when it is loaded once more; that it is a
member of the stage a failure is to take it from. -/
def Application.Decides (svc : Service) (A : Application) (message : DeviceMessage) : Prop :=
  A.event.deliveryStatus = .DELIVERY_SUCCESSFUL ∨
    (A.event.deliveryStatus = .DELIVERY_FAILED ∧ A.loads = 1 ∧
      isFinalFailure svc (eventFailure A.event) message.retryCount = true)

/-- The reply settles that the event acts on the message. -/
def Application.Aims (svc : Service) (A : Application) (c : Cmd) (r : Reply c) (m : MessageId) :
    Prop :=
  match c, r with
  | .redis (.hgetall x), .ok (some hash) =>
    x = m ∧ ∃ message, deserializeMessage m hash = .ok message ∧ A.Decides svc message
  | .redis (.zscore _ x), .ok (some _) => x = m
  | _, _ => False

def Cmd.isMove (c : Cmd) : Bool :=
  match c with
  | .redis (.moveMessageBetweenQueues _) => true
  | _ => false

/-- An application leaves alone what it is not aimed at, but for what it moves. -/
def aiming (svc : Service) : Monitor Cmd Reply (Application × (MessageId → Prop)) where
  allows s c := c.isMove = true ∨ ∀ m, ¬ s.2 m → c.LeavesAlone m
  next s c r s' := s' = (s.1.tell c, fun m => s.2 m ∨ s.1.Aims svc c r m)

/-- The application has come so far, and is aimed at the message, if one is named. -/
def Aimed (A : Application) (Z : Option MessageId) (s : Application × (MessageId → Prop)) : Prop :=
  s.1 = A ∧ ∀ m ∈ Z, s.2 m

variable {Z : Option MessageId} {m : MessageId}

theorem leavesAlone_redis {c : RedisCmd}
    (h : ∀ i (r : Redis), (c.run i r).2.messages m = r.messages m ∧
      ∀ q, ((c.run i r).2.queues q).score m = (r.queues q).score m)
    (ho : ∀ record now, c = .webhookEnqueue record now → record.terminalOf ≠ some m) :
    (Cmd.redis c).LeavesAlone m := by
  intro o w r w' hr
  rcases respond_store hr with hs | ⟨c', hc, -, hs⟩ <;> rw [hs]
  · exact .refl
  · cases hc
    obtain ⟨hhash, hscore⟩ := h o.id w.store.redis
    refine ⟨hhash, hscore, ?_⟩
    rcases outcomes_exec w.store c o.id m with he | ⟨record, now, e, ht, -⟩
    · exact he
    · exact absurd ht (ho record now e)

theorem leavesAlone_beside {c : RedisCmd} {x : MessageId}
    (h : ∀ i r, Redis.SameBeside x r (c.run i r).2)
    (ho : ∀ record now, c = .webhookEnqueue record now → record.terminalOf ≠ some m)
    (hm : m ≠ x) : (Cmd.redis c).LeavesAlone m :=
  leavesAlone_redis (fun i r => ⟨(h i r).hash m hm, fun q => (h i r).score m q hm⟩) ho

/-- Commands about the message that is aimed at keep the aim. -/
theorem command_aimed {c : Cmd} (hc : ∀ m, m ∉ Z → c.LeavesAlone m) (ht : A.tell c = A) :
    (Prog.command c : Engine (Reply c)).Keeps (aiming svc) (Aimed A Z) := by
  rintro s ⟨rfl, hZ⟩
  refine ⟨.inr fun m hm => hc m fun hmem => hm (hZ m hmem), fun r s' hs => ?_⟩
  cases hs
  exact ⟨ht, fun m hm => .inl (hZ m hm)⟩

theorem local_aimed {c : Cmd} (hc : ∀ b, c ≠ .redis b) :
    (Prog.command c : Engine (Reply c)).Keeps (aiming svc) (Aimed A Z) := by
  refine command_aimed (fun m _ o w r w' hr => ?_) ?_
  · rcases respond_store hr with hs | ⟨b, rfl, -, -⟩
    · rw [hs]
      exact .refl
    · exact absurd rfl (hc b)
  · cases c with
    | redis b => exact absurd rfl (hc b)
    | _ => rfl

theorem dateNow_aimed : dateNow.Keeps (aiming svc) (Aimed A Z) :=
  local_aimed (by simp)

theorem emit_aimed {pm : PartialMessage} (hid : ∀ m, pm.id = some m → m ∈ Z) :
    (emitDeliveryEvent svc pm).Keeps (aiming svc) (Aimed A Z) := by
  unfold emitDeliveryEvent storeAndEmit
  split
  next =>
    refine Prog.keeps_bind dateNow_aimed fun occurredAt => ?_
    refine Prog.keeps_bind (local_aimed (by simp)) fun eventId => ?_
    cases hb : buildWebhookEvent pm occurredAt eventId with
    | error e => exact Prog.keeps_pure _
    | ok event =>
      refine Prog.keeps_bind dateNow_aimed fun now => keeps_redis (command_aimed ?_ rfl)
      intro m hm
      refine leavesAlone_redis (fun _ _ => ⟨rfl, fun _ => rfl⟩) ?_
      rintro record now' he ht
      cases he
      unfold WebhookStoredRecord.terminalOf at ht
      split at ht
      next => exact hm (hid m ((buildWebhookEvent_id hb).1.symm.trans ht))
      next => cases ht
  next => exact Prog.keeps_pure _

theorem purge_aimed {message : DeviceMessage} (hm : message.id ∈ Z) :
    (purge message plugin).Keeps (aiming svc) (Aimed A Z) := by
  refine keeps_redis (command_aimed (fun x hx => ?_) rfl)
  refine leavesAlone_beside (fun _ r => beside_cleanup message _ r) (by simp) ?_
  rintro rfl
  exact hx hm

theorem entryWaitMs_aimed (name : StageName) (c : StageEntryContext) :
    ((stages name).entryWaitMs c).Keeps (aiming svc) (Aimed A Z) := by
  cases name with
  | retry => exact Prog.keeps_bind (local_aimed (by simp)) fun _ => Prog.keeps_pure _
  | _ => exact Prog.keeps_pure _

theorem read_leavesAlone {c : RedisCmd} (hc : ∀ i r, (c.run i r).2 = r)
    (ho : ∀ record now, c ≠ .webhookEnqueue record now) : (Cmd.redis c).LeavesAlone m :=
  leavesAlone_redis (fun i r => by rw [hc i r]; exact ⟨rfl, fun _ => rfl⟩)
    fun record now he => absurd he (ho record now)

/-- What is kept may be forgotten at the end. -/
theorem Aimed.done {p : Engine α} {s : Application × (MessageId → Prop)}
    (hp : p.Keeps (aiming svc) (Aimed A Z)) (hs : Aimed A Z s) :
    p.wp (aiming svc) (fun _ _ => True) (fun _ _ => True) s :=
  Prog.wp_mono (hp s hs) (fun _ _ _ => trivial) fun _ _ _ => trivial

/-- Who finds a message in the stage it is to leave is aimed at it. -/
theorem enterRetry_aimed {s : Application × (MessageId → Prop)} (hs : Aimed A none s)
    (q : QueueKey) (n : ParsedInt) (history : List FailureReason) :
    (enterRetry svc m q n history plugin).wp (aiming svc) (fun _ _ => True) (fun _ _ => True) s := by
  unfold enterRetry redis
  rw [Prog.wp_bind, Prog.wp_bind, Prog.wp_command]
  refine ⟨.inr fun x _ => read_leavesAlone (fun _ _ => rfl) (by simp), fun r s' hr => ?_⟩
  cases hr
  cases r with
  | error e => trivial
  | ok inQueue =>
    cases inQueue with
    | none => trivial
    | some k =>
      have haim : Aimed A (some m) (s.1.tell (.redis (.zscore q m)),
          fun x => s.2 x ∨ s.1.Aims svc (.redis (.zscore q m)) (.ok (some k)) x) := by
        refine ⟨hs.1, fun x hx => .inr ?_⟩
        cases hx
        rfl
      refine Aimed.done ?_ haim
      refine Prog.keeps_bind dateNow_aimed fun now => ?_
      refine Prog.keeps_bind (entryWaitMs_aimed _ _) fun wait => ?_
      refine Prog.keeps_bind (keeps_redis (command_aimed (fun x _ => ?_) rfl)) fun fields => ?_
      · exact read_leavesAlone (fun _ _ => rfl) (by simp)
      · refine Prog.keeps_bind (keeps_redis (command_aimed (fun x hx => ?_) rfl))
          fun _ => Prog.keeps_pure _
        refine leavesAlone_beside (fun _ r => beside_enterRetry _ r) (by simp) ?_
        rintro rfl
        exact hx rfl

/-- A message that is loaded is aimed at when that is what its load decides. -/
theorem getMessageById_aimed {s : Application × (MessageId → Prop)} (hs : s.1 = A) :
    (getMessageById m).wp (aiming svc) (fun message s' =>
      s'.1 = { A with loads := A.loads + 1 } ∧ ∀ x, message = some x →
        x.id = m ∧ (A.Decides svc x → s'.2 m)) (fun _ _ => True) s := by
  unfold getMessageById redis
  rw [Prog.wp_bind, Prog.wp_bind, Prog.wp_command]
  refine ⟨.inr fun x _ => read_leavesAlone (fun _ _ => rfl) (by simp), fun r s' hr => ?_⟩
  cases hr
  subst hs
  cases r with
  | error e => trivial
  | ok raw =>
    cases raw with
    | none => exact ⟨rfl, fun x hx => nomatch hx⟩
    | some hash =>
      simp only [Prog.wp_pure, readHash, Option.map_some, readPicked]
      cases hm : deserializeMessage m hash with
      | error e => trivial
      | ok message =>
        refine ⟨rfl, fun x hx => ?_⟩
        cases hx
        exact ⟨(deserializeMessage_fields hm).2.1, fun hd => .inr ⟨rfl, message, hm, hd⟩⟩

theorem retryOrFail_aimed {s : Application × (MessageId → Prop)} (hs : s.1 = A)
    (hfailed : A.event.deliveryStatus = .DELIVERY_FAILED) (hloads : A.loads = 1) (q : QueueKey) :
    (retryOrFail svc m q (eventFailure A.event) plugin).wp (aiming svc) (fun _ _ => True)
      (fun _ _ => True) s := by
  unfold retryOrFail
  rw [Prog.wp_bind]
  refine Prog.wp_mono (getMessageById_aimed hs) (fun message s' h => ?_) fun _ _ _ => trivial
  obtain ⟨hs', haim⟩ := h
  cases message with
  | none => trivial
  | some message =>
    obtain ⟨hid, hdecides⟩ := haim message rfl
    by_cases hf : isFinalFailure svc (eventFailure A.event) message.retryCount = true
    · have hready : Aimed { A with loads := A.loads + 1 } (some m) s' := by
        refine ⟨hs', fun x hx => ?_⟩
        cases hx
        exact hdecides (.inr ⟨hfailed, hloads, hf⟩)
      refine Aimed.done (Prog.keeps_bind dateNow_aimed fun timestamp => ?_) hready
      simp only [hf, if_true]
      refine Prog.keeps_bind (emit_aimed fun x hx => ?_) fun _ => ?_
      · cases hx
        rw [hid]
        exact rfl
      · refine Prog.keeps_bind (purge_aimed ?_) fun _ => Prog.keeps_pure _
        rw [hid]
        exact rfl
    · have hready : Aimed { A with loads := A.loads + 1 } none s' := ⟨hs', fun x hx => nomatch hx⟩
      dsimp only
      rw [Prog.wp_bind]
      refine Prog.wp_mono (dateNow_aimed s' hready) (fun timestamp s₁ hs₁ => ?_) fun _ _ _ => trivial
      rw [if_neg hf, Prog.wp_bind]
      refine Prog.wp_mono (enterRetry_aimed hs₁ q _ _) (fun _ _ _ => ?_) fun _ _ _ => trivial
      trivial

theorem processSuccess_aimed {s : Application × (MessageId → Prop)} (hs : s.1 = A)
    (hsuccess : A.event.deliveryStatus = .DELIVERY_SUCCESSFUL) :
    (processSuccess svc m A.event plugin).wp (aiming svc) (fun _ _ => True) (fun _ _ => True) s := by
  unfold processSuccess
  rw [Prog.wp_bind]
  refine Prog.wp_mono (getMessageById_aimed hs) (fun message s' h => ?_) fun _ _ _ => trivial
  obtain ⟨hs', haim⟩ := h
  cases message with
  | none => trivial
  | some message =>
    obtain ⟨hid, hdecides⟩ := haim message rfl
    have hready : Aimed { A with loads := A.loads + 1 } (some m) s' := by
      refine ⟨hs', fun x hx => ?_⟩
      cases hx
      exact hdecides (.inl hsuccess)
    refine Aimed.done (Prog.keeps_bind dateNow_aimed fun timestamp => ?_) hready
    refine Prog.keeps_bind (emit_aimed fun x hx => ?_) fun _ => ?_
    · cases hx
      rw [hid]
      exact rfl
    · refine Prog.keeps_bind (purge_aimed ?_) fun _ => Prog.keeps_pure _
      rw [hid]
      exact rfl

theorem processFailure_aimed {s : Application × (MessageId → Prop)} (hs : s.1 = A)
    (hfailed : A.event.deliveryStatus = .DELIVERY_FAILED) (hloads : A.loads = 0) :
    (processFailure svc m A.event plugin).wp (aiming svc) (fun _ _ => True) (fun _ _ => True) s := by
  unfold processFailure
  rw [Prog.wp_bind]
  refine Prog.wp_mono (getMessageById_aimed hs) (fun message s' h => ?_) fun _ _ _ => trivial
  cases message with
  | none => trivial
  | some message =>
    dsimp only
    split
    next => trivial
    next =>
      split
      next => trivial
      next =>
        have hloads' : ({ A with loads := A.loads + 1 } : Application).loads = 1 := by
          rw [hloads]
        exact retryOrFail_aimed h.1 hfailed hloads' _

theorem advance_aimed {s : Application × (MessageId → Prop)} (hs : Aimed A none s)
    (fromStage : StageName) (x : Option String) (n : ParsedInt) :
    (advance svc m plugin fromStage x n).wp (aiming svc) (fun _ _ => True) (fun _ _ => True) s := by
  unfold advance
  split
  next => trivial
  next next _ =>
    refine Aimed.done ?_ hs
    refine Prog.keeps_bind dateNow_aimed fun now => ?_
    refine Prog.keeps_bind (entryWaitMs_aimed _ _) fun wait => keeps_redis ?_
    rintro s ⟨rfl, -⟩
    refine ⟨.inl rfl, fun r s' hs => ?_⟩
    cases hs
    exact ⟨rfl, fun x hx => nomatch hx⟩

/-- An application is aimed at the one message it acts on, before it does. -/
theorem processEvent_aimed (hloads : A.loads = 0) :
    (processEvent svc A.event A.plugin).wp (aiming svc) (fun _ _ => True) (fun _ _ => True)
      (A, fun _ => False) := by
  have hstart : Aimed A none (A, fun _ => False) := ⟨rfl, fun x hx => nomatch hx⟩
  unfold processEvent
  split
  next =>
    refine Aimed.done (Prog.keeps_bind (emit_aimed fun x hx => ?_) fun _ => Prog.keeps_pure _) hstart
    cases hx
  next =>
    split
    next => trivial
    next y _ =>
      have hlook : (getMessageIdFromDeliveryQueueId y).Keeps (aiming svc) (Aimed A none) := by
        refine Prog.keeps_bind (keeps_redis (command_aimed (fun x _ => ?_) rfl))
          fun _ => Prog.keeps_pure _
        exact read_leavesAlone (fun _ _ => rfl) (by simp)
      rw [Prog.wp_bind]
      refine Prog.wp_mono (hlook _ hstart) (fun messageId s hs => ?_) fun _ _ _ => trivial
      cases messageId with
      | none => trivial
      | some m =>
        dsimp only
        unfold processIndexed
        split
        next =>
          rw [Prog.wp_bind]
          refine Prog.wp_mono (advance_aimed hs _ _ _) (fun _ _ _ => ?_) fun _ _ _ => trivial
          trivial
        next =>
          split
          next hfailed => exact processFailure_aimed hs.1 hfailed hloads
          next =>
            split
            next => trivial
            next hsuccess => exact processSuccess_aimed hs.1 (not_not.mp hsuccess)

end DeviceMessaging
