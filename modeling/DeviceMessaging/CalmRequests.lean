import DeviceMessaging.CalmOutgoing

namespace DeviceMessaging

open Effect

variable {svc : Service} {settled : DeliveryPattern → Prop} {ledger : List Issued}
  {polls : PollRule} {w w' : World} {m : MessageId} {a : Attempt} {plugin : DeliveryPlugin}
  {h : MessageHash} {message : DeviceMessage}

theorem enqueue_calm (hS : Sound svc settled ledger w) (create : CreateDeviceMessage) :
    (enqueue svc create).wp (calm polls) (fun _ => Sound svc settled ledger)
      (fun _ => Sound svc settled ledger) w := by
  unfold enqueue
  split
  next => exact hS
  next => exact hS
  next => exact hS
  next plugin hp =>
    split
    next => exact hS
    next =>
      split
      next => exact hS
      next =>
        rw [wp_redis]
        intro id hf
        obtain ⟨hne, hnew⟩ := hf rfl
        have hg := hS.unnamed hnew
        have howned := PluginRegistry.delivery_of_get hp
        have hhash : (w.after (.enqueueDeviceMessage create
            (Attempt.first create plugin).readyQueue) id).store.redis.messages id =
              some (serializeCreateDeviceMessage create) := by
          refine (congrFun (enqueue_messages id create _ w.store.redis) id).trans ?_
          rw [Function.update_self, hg.hash, Option.getD_none, MessageHash.write_empty]
        refine hS.change (m := id) (fun x hx => ?_) (.inr ⟨.first create plugin, ?_⟩)
        · exact .after (spared_enqueue hx) nofun fun _ _ he => nomatch he
        · exact ⟨_, hhash, .enqueued howned, .enqueued hg hnew hne⟩

/-- A message in the hands of a cancel: it loaded from its hash as it still is, or
has gone since. -/
def Listed (svc : Service) (settled : DeliveryPattern → Prop) (ledger : List Issued) (w : World)
    (message : DeviceMessage) : Prop :=
  Gone w message.id ∨ ∃ h a, w.store.redis.messages message.id = some h ∧ Standing svc h a ∧
    Places settled ledger w message.id h a ∧ Loaded message.id h a message

theorem Listed.untouched (hl : Listed svc settled ledger w message)
    (hu : Untouched ledger message.id w w') : Listed svc settled ledger w' message := by
  rcases hl with hn | ⟨h, a, hh, hst, hp, hl⟩
  · exact .inl (hn.untouched hu)
  · exact .inr ⟨h, a, hu.hash.trans hh, hst, hp.untouched hu, hl⟩

theorem readIndexed_calm (hS : Sound svc settled ledger w) (id : MessageId) :
    ∃ loaded, (readIndexed id (w.store.redis.messages id) : Engine _) = pure loaded ∧
      (∀ message, loaded = some message → Listed svc settled ledger w message) ∧
      (w.store.redis.messages id ≠ none → ∃ message, loaded = some message ∧ message.id = id) := by
  unfold readIndexed
  split
  next hx =>
    refine ⟨none, rfl, (fun _ he => by cases he), fun hh => ?_⟩
    obtain ⟨h, hh⟩ := Option.ne_none_iff_exists'.mp hh
    obtain ⟨a, -, hp⟩ := hS.standing hh
    have hkey : messageIdFromKey (some id) = some id :=
      Option.filter_eq_some_iff.mpr ⟨rfl, decide_eq_true hp.id_ne⟩
    cases hkey.symm.trans hx
  next x hx =>
    have hx : x = id := (Option.some.inj (messageIdFromKey_some hx)).symm
    subst hx
    unfold readHash readPicked
    cases hh : w.store.redis.messages x with
    | none => exact ⟨none, rfl, (fun _ he => by cases he), fun he => absurd rfl he⟩
    | some h =>
      obtain ⟨a, hst, hp⟩ := hS.standing hh
      obtain ⟨message, hm, hl⟩ := hst.load x
      simp only [Option.map_some, hm]
      have hid : message.id = x := hl.id
      refine ⟨some message, rfl, fun _ he => ?_, fun _ => ⟨message, rfl, hid⟩⟩
      cases he
      rw [← hid] at hh hp hl
      exact .inr ⟨h, a, hh, hst, hp, hl⟩

/-- What is loaded is listed, and what is stored under one of the ids is loaded. -/
structure LoadsAll (svc : Service) (settled : DeliveryPattern → Prop) (ledger : List Issued)
    (w : World) (keys : List (Option MessageId)) (messages : List DeviceMessage) : Prop where
  listed : ∀ message ∈ messages, Listed svc settled ledger w message
  complete : ∀ id, some id ∈ keys → w.store.redis.messages id ≠ none →
    ∃ message ∈ messages, message.id = id

theorem loadIndexed_calm (hS : Sound svc settled ledger w) (keys : List (Option MessageId))
    {Q : List DeviceMessage → World → Prop} {E : String → World → Prop}
    (hQ : ∀ messages, LoadsAll svc settled ledger w keys messages → Q messages w) :
    (loadIndexed keys).wp (calm polls) Q E w := by
  induction keys generalizing Q with
  | nil => exact hQ [] ⟨fun _ h => absurd h List.not_mem_nil, fun _ h => absurd h List.not_mem_nil⟩
  | cons key rest ih =>
    cases key with
    | none =>
      refine ih fun messages hm => hQ messages ⟨hm.listed, fun id hk => ?_⟩
      exact hm.complete id ((List.mem_cons.mp hk).resolve_left fun he => by cases he)
    | some id =>
      obtain ⟨loaded, hl, hlisted, hstored⟩ := readIndexed_calm hS id
      unfold loadIndexed
      rw [Prog.wp_bind, Prog.wp_tryCatch, wp_hgetall, Prog.wp_bind, hl, Prog.wp_pure, Prog.wp_bind]
      refine ih fun messages hm => hQ _ ⟨fun message hmem => ?_, fun x hk hx => ?_⟩
      · rcases List.mem_append.mp hmem with hmem | hmem
        · exact hlisted message (Option.mem_toList.mp hmem)
        · exact hm.listed message hmem
      · rcases List.mem_cons.mp hk with he | hk
        · cases he
          obtain ⟨message, he, hid⟩ := hstored hx
          exact ⟨message, List.mem_append_left _ (Option.mem_toList.mpr he), hid⟩
        · obtain ⟨message, hmem, hid⟩ := hm.complete x hk hx
          exact ⟨message, List.mem_append_right _ hmem, hid⟩

/-- A cancel of one message ends it without a trace, or touches nothing. -/
theorem cancelOneMessage_calm (hl : Listed svc settled ledger w message) :
    (cancelOneMessage svc message).wp (calm polls)
      (fun cancelled w' => Only ledger message.id w w' ∧
        ((cancelled = true ∧ Gone w' message.id) ∨
          (cancelled = false ∧ Untouched ledger message.id w w'))) NoThrow w := by
  unfold cancelOneMessage
  split
  next => exact ⟨.refl, .inr ⟨rfl, .refl⟩⟩
  next hstatus =>
    split
    next => exact ⟨.refl, .inr ⟨rfl, .refl⟩⟩
    next plugin howner =>
      have honly : Only ledger message.id w
          (w.after (.removeMessageFromQueue (cancelQueue plugin message) message.id) "") :=
        fun x hx => .after (spared_zrem _ hx) nofun fun _ _ he => nomatch he
      unfold claimFromQueue
      rw [Prog.wp_bind, wp_redis_plain rfl]
      have hclaim : ∀ claimed : Bool,
          claimed = decide (message.id ∈ w.store.redis.queues (cancelQueue plugin message)) →
          (if claimed then do
              purge message plugin
              return true
            else return false : Engine Bool).wp (calm polls)
            (fun cancelled w' => Only ledger message.id w w' ∧
              ((cancelled = true ∧ Gone w' message.id) ∨
                (cancelled = false ∧ Untouched ledger message.id w w'))) NoThrow
            (w.after (.removeMessageFromQueue (cancelQueue plugin message) message.id) "") := by
        intro claimed hc
        split
        next ht =>
          have hq : message.id ∈ w.store.redis.queues (cancelQueue plugin message) := by
            rw [ht] at hc
            exact of_decide_eq_true hc.symm
          rcases hl with hn | ⟨h, a, hh, hst, hp, hl⟩
          · exact absurd hq (hn.queues _)
          cases howner.symm.trans (hst.owner hl.toSnapshot)
          have hs : a.status ≠ .SENT_TO_NS := by
            intro hs
            rw [hl.status, hs] at hstatus
            exact hstatus ⟨by decide, by decide⟩
          rw [Prog.wp_bind]
          have hp' : Places (fun _ => False) ledger _ message.id h a :=
            hp.zrem (q := cancelQueue a.plugin message) id
          refine Prog.wp_mono (purge_calm hst hp' hl.toSnapshot (hp.no_send hs) fun _ => rfl)
            (fun _ w' hw' => ?_) fun _ _ h => h
          exact ⟨honly.trans hw'.2, .inl ⟨rfl, hw'.1⟩⟩
        next hf =>
          refine ⟨honly, .inr ⟨rfl, .after (spared_setQueue ?_) nofun⟩⟩
          have hq : message.id ∉ w.store.redis.queues (cancelQueue plugin message) := by
            rw [hc] at hf
            exact fun hm => hf (decide_eq_true hm)
          simp [hq]
      exact hclaim _ rfl

/-- The messages of a batch that are cancelled leave no trace, and no trace comes back. -/
structure Cancels (svc : Service) (settled : DeliveryPattern → Prop) (ledger : List Issued)
    (messages : List DeviceMessage) (w : World) (outcomes : List Bool) (w' : World) : Prop where
  sound : Sound svc settled ledger w'
  gone : ∀ x, Gone w x → Gone w' x
  ended : List.Forall₂ (fun message cancelled => cancelled = true → Gone w' message.id) messages
    outcomes

theorem ended_of_all {P : DeviceMessage → Prop} {messages : List DeviceMessage}
    {outcomes : List Bool} (hall : outcomes.all id = true)
    (h : List.Forall₂ (fun message cancelled => cancelled = true → P message) messages outcomes) :
    ∀ message ∈ messages, P message := by
  induction h with
  | nil => exact fun _ h => absurd h List.not_mem_nil
  | cons hend _ ih =>
    rw [List.all_cons, Bool.and_eq_true] at hall
    intro message hmem
    rcases List.mem_cons.mp hmem with rfl | hmem
    · exact hend hall.1
    · exact ih hall.2 message hmem

theorem cancelMessages_calm (messages : List DeviceMessage) (hS : Sound svc settled ledger w)
    (hl : ∀ message ∈ messages, Listed svc settled ledger w message) :
    (cancelMessages svc messages).wp (calm polls) (Cancels svc settled ledger messages w)
      NoThrow w := by
  induction messages generalizing w with
  | nil => exact ⟨hS, fun _ hg => hg, .nil⟩
  | cons message rest ih =>
    unfold cancelMessages
    rw [Prog.wp_bind]
    refine Prog.wp_mono (cancelOneMessage_calm (hl message List.mem_cons_self))
      (fun cancelled w₁ hw₁ => ?_) fun _ _ h => h
    obtain ⟨ho, hm⟩ := hw₁
    have hend : Gone w₁ message.id ∨ Untouched ledger message.id w w₁ :=
      hm.imp And.right And.right
    have hS₁ : Sound svc settled ledger w₁ := by
      refine hS.change ho ?_
      rcases hend with hg | hu
      · exact .inl hg
      · exact (hS message.id).untouched hu
    have hgone : ∀ x, Gone w x → Gone w₁ x := by
      intro x hx
      by_cases he : x = message.id
      · subst he
        rcases hend with hg | hu
        · exact hg
        · exact hx.untouched hu
      · exact hx.untouched (ho x he).toUntouched
    rw [Prog.wp_bind]
    refine Prog.wp_mono (ih hS₁ fun other hmem => ?_) (fun others w₂ h₂ => ?_) fun _ _ h => h
    · have hother := hl other (List.mem_cons_of_mem _ hmem)
      by_cases hx : other.id = message.id
      · rcases hend with hg | hu
        · exact .inl (hx ▸ hg)
        · exact hother.untouched (hx ▸ hu)
      · exact hother.untouched (ho other.id hx).toUntouched
    · refine ⟨h₂.sound, fun x hx => h₂.gone x (hgone x hx), .cons (fun hc => ?_) h₂.ended⟩
      rcases hm with ⟨-, hg⟩ | ⟨hf, -⟩
      · exact h₂.gone _ hg
      · cases hc.symm.trans hf

theorem getAllMessages_calm (hS : Sound svc settled ledger w) (correlationId : String)
    {Q : List DeviceMessage → World → Prop} {E : String → World → Prop}
    (hQ : ∀ messages, LoadsAll svc settled ledger w
      ((correlationIndexKeys correlationId).map w.store.redis.correlations) messages →
      Q messages w) :
    (getAllMessagesForCorrelationId correlationId).wp (calm polls) Q E w := by
  unfold getAllMessagesForCorrelationId
  rw [Prog.wp_bind, wp_mgetCorrelationIndexes]
  exact loadIndexed_calm hS _ hQ

/-- A cancel that succeeds leaves no trace of what the indexes of the id lead to. -/
theorem cancelOne_calm (hS : Sound svc settled ledger w) (correlationId : String) :
    (cancelOne svc correlationId).wp (calm polls) (fun result w' =>
      Sound svc settled ledger w' ∧ (result = .CANCELLED →
        ∀ key ∈ correlationIndexKeys correlationId, ∀ x,
          w.store.redis.correlations key = some x → Gone w' x)) NoThrow w := by
  unfold cancelOne
  rw [Prog.wp_bind]
  refine getAllMessages_calm hS correlationId fun messages hl => ?_
  split
  next => exact ⟨hS, fun he => by cases he⟩
  next =>
    rw [Prog.wp_bind]
    refine Prog.wp_mono (cancelMessages_calm messages hS hl.listed) (fun outcomes w' h => ?_)
      fun _ _ h => h
    refine ⟨h.sound, fun hres key hkey x hx => ?_⟩
    have hall : outcomes.all id = true := by
      by_contra hne
      rw [if_neg hne] at hres
      cases hres
    rcases hS x with hg | ⟨a, hash, hh, -⟩
    · exact h.gone x hg
    · obtain ⟨message, hmem, rfl⟩ := hl.complete x (List.mem_map.mpr ⟨key, hkey, hx⟩)
        (by simp [hh])
      exact ended_of_all hall h.ended message hmem

end DeviceMessaging
