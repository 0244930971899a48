import DeviceMessaging.MessageWork

namespace DeviceMessaging

open Effect
open Effect.Prog (wp_mono wp_bind wp_pure wp_command wp_tryCatch keeps_bind keeps_pure)

variable {svc : Service} {h : Handler} {g : Work} {id : MessageId} {plugin : DeliveryPlugin}
  {message : DeviceMessage}

section Drain

variable {queue : StageQueue} {now : Nat} {age : Int}

theorem removal_works {q : QueueKey} (hg : q = .ns → g = .busy id ∨ g = .missing id) :
    Works svc (Row queue now) (redis (.removeMessageFromQueue q id)) g := by
  unfold Works redis
  rw [wp_bind, wp_command]
  refine ⟨hg, fun r g' _ => ?_⟩
  cases r <;> trivial

theorem followUp_works (hfits : queue.key = .ns → queue.stage = .ns) {out : StageOutcome}
    (hg : queue.stage = .ns → out = .orphaned → g = .busy id ∨ g = .missing id) :
    Works svc (Row queue now) (followUp svc queue id message age plugin out) g := by
  cases out with
  | orphaned =>
    unfold Works followUp
    rw [wp_bind]
    exact wp_mono (removal_works fun hkey => hg (hfits hkey) rfl) (fun _ _ _ => trivial)
      fun _ _ _ => trivial
  | rescheduled =>
    refine works_of_keeps (keeps_bind (p := rescheduleWaitMsFor queue.stage _) ?_ fun wait => ?_) g
    · unfold rescheduleWaitMsFor
      split
      next => exact keeps_pure _
      next => exact entryWait_works _ _
    · exact keeps_bind (works_aside (c := .dateNow) trivial) fun now =>
        works_redis_aside (c := .zaddXx _ _ _) trivial
  | movedOn => trivial
  | removed => trivial

/-- A member that reads is one to work on, for `ns` once it is owned. -/
theorem load_found {raw : Option MessageHash} (hm : readsAs id raw = some message) :
    ((owner svc message).isSome = true →
      TakenUp queue id (g.load svc (Row queue now) id raw)) ∧
    (queue.stage = .ns → owner svc message = none →
      g.load svc (Row queue now) id raw = .busy id ∨
        g.load svc (Row queue now) id raw = .missing id) := by
  have hns : queue.stage = .ns → g.load svc (Row queue now) id raw =
      if g ≠ .busy id then
        if (owner svc message).isSome then .loaded id else .missing id
      else .busy id := by
    intro hns
    unfold Work.load
    simp [hm, hns]
  refine ⟨fun howned => ⟨fun hstage => ?_, fun ha => (takes_acts ha id g).found raw message hm⟩,
    fun hstage hnone => ?_⟩
  · rw [hns hstage, if_pos howned]
    split
    next => exact .inl rfl
    next => exact .inr rfl
  · rw [hns hstage, hnone]
    split
    next => exact .inr rfl
    next => exact .inl rfl

theorem load_none (hns : queue.stage = .ns) :
    g.load svc (Row queue now) id none = .missing id := by
  unfold Work.load
  simp [hns, readsAs]

theorem drainMember_works (hfits : queue.key = .ns → queue.stage = .ns) :
    Works svc (Row queue now) (drainMember svc queue now id) g := by
  unfold Works drainMember
  rw [wp_bind]
  refine getMessageById_works (fun raw message hm hid => ?_) ?_ fun _ _ => trivial
  · obtain ⟨howned, hunowned⟩ : ((owner svc message).isSome = true →
        TakenUp queue id (g.load svc (Row queue now) id raw)) ∧ _ := load_found hm
    subst hid
    dsimp only
    cases howner : owner svc message with
    | none =>
      dsimp only
      rw [wp_bind]
      exact wp_mono (removal_works fun hkey => hunowned (hfits hkey) howner)
        (fun _ _ _ => trivial) fun _ _ _ => trivial
    | some plugin =>
      have hloaded := howned (by rw [howner]; rfl)
      dsimp only
      rw [wp_bind]
      unfold decodeTime
      cases svc.decodeTime message.id with
      | none => trivial
      | some time =>
        dsimp only
        rw [wp_pure, wp_bind]
        unfold act
        rw [wp_tryCatch]
        refine wp_mono (stageActions_works hloaded) (fun out g' hout => followUp_works hfits hout)
          fun _ g' _ => ?_
        exact followUp_works hfits fun _ => nofun
  · dsimp only
    rw [wp_bind]
    exact wp_mono (removal_works fun hkey => .inr (load_none (hfits hkey))) (fun _ _ _ => trivial)
      fun _ _ _ => trivial

theorem drainMembers_works (hfits : queue.key = .ns → queue.stage = .ns) (ids : List MessageId) :
    Works svc (Row queue now) (drainMembers svc queue now ids) g := by
  induction ids generalizing g with
  | nil => trivial
  | cons id rest ih =>
    unfold Works drainMembers
    rw [wp_bind]
    exact wp_mono (drainMember_works hfits) (fun _ _ _ => ih) fun _ _ _ => trivial

theorem drainRow_works (hfits : queue.key = .ns → queue.stage = .ns) :
    Works svc (Row queue now) (drainRow svc queue now) g := by
  unfold Works drainRow
  rw [wp_bind]
  refine wp_mono (works_of_keeps (works_aside (c := .beginDrain queue.key) trivial) g)
    (fun began g _ => ?_) fun _ _ _ => trivial
  cases began with
  | false => trivial
  | true =>
    have hend : ∀ g, Works svc (Row queue now)
        (Prog.command (Cmd.endDrain queue.key) : Engine Unit) g := fun g =>
      ⟨trivial, fun _ _ _ => trivial⟩
    simp only [↓reduceIte, wp_bind, wp_tryCatch]
    unfold drain
    rw [wp_bind]
    refine wp_mono (works_of_keeps
      (works_redis_aside (c := .getExpiredMessagesInQueue queue.key now) trivial) g)
      (fun dueIds g _ => ?_) fun _ g _ => hend g
    exact wp_mono (drainMembers_works hfits dueIds) (fun _ g _ => hend g) fun _ g _ => hend g

end Drain

theorem spawnAll_works {tasks : List Task}
    (hfit : ∀ t ∈ tasks, t.Fits ∧ ∀ p message token, t ≠ .send p message token) :
    Works svc h (spawnAll tasks) g := by
  induction tasks generalizing g with
  | nil => trivial
  | cons t rest ih =>
    unfold Works spawnAll
    rw [wp_bind, wp_command]
    exact ⟨hfit t List.mem_cons_self, fun _ _ _ => ih fun u hu => hfit u (List.mem_cons_of_mem t hu)⟩

theorem fits_of_enumerated {ids : List PluginId} {queue : StageQueue} {now : Nat}
    (hqueue : queue ∈ enumerateStageQueues ids) : (Task.drain queue now).Fits := by
  intro hkey
  obtain ⟨stage, key⟩ := queue
  obtain ⟨p, hp⟩ : ∃ p, key = stageKeyFor stage p := by
    unfold enumerateStageQueues at hqueue
    obtain ⟨stage', -, hmem⟩ := List.mem_flatMap.mp hqueue
    split at hmem
    next =>
      obtain ⟨p, -, he⟩ := List.mem_map.mp hmem
      cases he
      exact ⟨p, rfl⟩
    next =>
      cases List.mem_singleton.mp hmem
      exact ⟨"", rfl⟩
  change key = .ns at hkey
  rw [hkey] at hp
  cases stage <;> first | rfl | cases hp

theorem tick_works : Works svc h (tick svc) g := by
  unfold Works tick
  rw [wp_bind]
  refine wp_mono (works_of_keeps (works_aside (c := .dateNow) trivial) g) (fun now g _ => ?_)
    fun _ _ _ => trivial
  refine spawnAll_works fun t ht => ?_
  obtain ⟨queue, hqueue, rfl⟩ := List.mem_map.mp ht
  exact ⟨fits_of_enumerated hqueue, fun _ _ _ he => by cases he⟩

theorem distributeToNetworkServers_works : Works svc h distributeToNetworkServers g := by
  unfold Works distributeToNetworkServers
  rw [wp_bind]
  refine wp_mono (works_of_keeps (works_redis_aside (c := .fetchQueuesWithMessages) trivial) g)
    (fun queues g _ => ?_) fun _ _ _ => trivial
  refine spawnAll_works fun t ht => ?_
  obtain ⟨q, -, rfl⟩ := List.mem_map.mp ht
  exact ⟨trivial, fun _ _ _ he => by cases he⟩

theorem enqueue_works {create : CreateDeviceMessage} : Works svc h (enqueue svc create) g := by
  unfold Works enqueue
  split
  next => trivial
  next => trivial
  next => trivial
  next plugin hplugin =>
    split
    next => trivial
    next =>
      split
      next => trivial
      next =>
        have hdelivery := PluginRegistry.delivery_of_get hplugin
        unfold redis
        rw [wp_bind, wp_command]
        refine ⟨?_, fun r g' _ => ?_⟩
        · change (svc.registry.delivery create.pluginId).isSome = true
          rw [hdelivery]
          rfl
        · cases r <;> trivial

theorem deadMembers_works {J : Work → Prop} (ids : List MessageId) :
    (deadMembers ids).Keeps (works svc h) J := by
  induction ids with
  | nil => exact keeps_pure _
  | cons id ids ih =>
    refine keeps_bind (Prog.keeps_tryCatch (works_redis_aside (c := .existsMessage id) trivial)
      fun _ => keeps_pure _) fun live => ?_
    exact keeps_bind ih fun _ => keeps_pure _

theorem canAdmit_works {J : Work → Prop} {queueKey : QueueKey} :
    (canAdmit plugin queueKey).Keeps (works svc h) J := by
  unfold canAdmit
  split
  next ms _ => exact works_redis_aside (c := .lockQueueForTimeMs _ _) trivial
  next =>
    split
    next => exact keeps_pure _
    next key _ =>
      refine keeps_bind (works_redis_aside (c := .getConcurrencyRateLimitCount key) trivial)
        fun tracked => ?_
      split
      next =>
        refine keeps_bind ?_ fun _ => keeps_pure _
        unfold validateAndCleanConcurrencyRateLimit
        refine keeps_bind (works_redis_aside (c := .smembersRateLimit key) trivial) fun ids => ?_
        refine keeps_bind (deadMembers_works ids) fun dead => ?_
        split
        next => exact keeps_pure _
        next =>
          exact keeps_bind (works_redis_aside (c := .sremRateLimit key dead) trivial)
            fun _ => keeps_pure _
      next => exact keeps_pure _

/-- A picked message that reads is to be sent. -/
theorem pickIntoNs_works {node : AdmissionNode} {c : Option ConcurrencyRateLimit} :
    (pickIntoNs svc (.ready node) plugin c).wp (works svc h)
      (fun picked g' => ∀ message, picked = some message → g' = .picked message.id)
      (fun _ _ => True) .free := by
  unfold pickIntoNs
  rw [wp_bind]
  refine wp_mono (works_aside (c := .dateNow) (J := (· = .free)) trivial _ rfl) ?_
    fun _ _ _ => trivial
  rintro now g rfl
  rw [wp_bind]
  refine wp_mono (entryWait_works (J := (· = .free)) .ns _ _ rfl) ?_ fun _ _ _ => trivial
  rintro wait g rfl
  rw [wp_bind]
  unfold redis
  rw [wp_bind, wp_command]
  refine ⟨⟨⟨node, rfl⟩, rfl, rfl⟩, ?_⟩
  rintro r g' rfl
  cases r with
  | error e => trivial
  | ok raw =>
    rw [wp_pure]
    cases raw with
    | none => exact fun _ he => nomatch he
    | some picked =>
      obtain ⟨id, hash⟩ := picked
      simp only [readPicked]
      cases hm : deserializeMessage id hash with
      | error e => trivial
      | ok message =>
        rintro m he
        cases he
        have hid := (deserializeMessage_fields hm).2.1
        simp [Work.after, Work.pick, readsAs, hm, Except.toOption, hid]

theorem distributeQueue_works {queueKey : QueueKey} :
    Works svc h (distributeQueue svc queueKey) .free := by
  unfold Works distributeQueue
  cases hq : (getPluginIdFromInitialQueueKey queueKey).bind svc.registry.delivery with
  | none => trivial
  | some plugin =>
    obtain ⟨pluginId, hid, -⟩ := Option.bind_eq_some_iff.mp hq
    obtain ⟨node, rfl, -⟩ := ready_of_pluginId hid
    dsimp only
    unfold distributeWith
    rw [wp_bind]
    refine wp_mono (canAdmit_works (J := (· = .free)) _ rfl) ?_ fun _ _ _ => trivial
    rintro admitted g rfl
    cases admitted with
    | false => trivial
    | true =>
      rw [if_pos rfl, wp_bind]
      refine wp_mono pickIntoNs_works (fun picked g' hpicked => ?_) fun _ _ _ => trivial
      cases picked with
      | none => trivial
      | some message =>
        have hg := hpicked message rfl
        subst hg
        dsimp only
        rw [wp_bind]
        have hemit : (emitFirstSend svc message).wp (works svc h)
            (fun _ g' => g' = .picked message.id) (fun _ _ => True) (.picked message.id) := by
          unfold emitFirstSend
          split
          next =>
            refine wp_mono (emit_works fun x hx => ?_) (fun _ _ hg => hg) fun _ _ _ => trivial
            rw [← Option.some.inj hx]
            exact .inr rfl
          next => rfl
        refine wp_mono hemit ?_ fun _ _ _ => trivial
        rintro _ g rfl
        exact ⟨rfl, fun _ _ _ => trivial⟩

theorem send_works {p : PluginId} {token : Nat} :
    Works svc (.task (.send p message token)) (send svc p message token)
      (.sending message.id) := by
  unfold Works send
  split
  next => trivial
  next plugin hplugin =>
    have hid := PluginRegistry.delivery_id hplugin
    unfold trackedSend
    rw [wp_bind, wp_tryCatch]
    have hsettle : ∀ g, Works svc (.task (.send p message token))
        (Prog.command (Cmd.settleSend message.id token) : Engine Unit) g :=
      fun g => ⟨⟨p, message, rfl, rfl⟩, fun _ _ _ => trivial⟩
    suffices hsend : Works svc (.task (.send p message token))
        (sendOneToNetworkServer svc plugin message) (.sending message.id) from
      wp_mono hsend (fun _ g _ => hsettle g) fun _ g _ => hsettle g
    have hown : ∃ t, Handler.task (.send p message token) = .task (.send plugin.id message t) :=
      ⟨token, by rw [hid]⟩
    unfold Works sendOneToNetworkServer
    rw [wp_bind, wp_command]
    refine ⟨⟨rfl, hown⟩, ?_⟩
    rintro _ g rfl
    rw [wp_bind, wp_command]
    refine ⟨⟨rfl, hown⟩, ?_⟩
    rintro answer g rfl
    have hfail : ∀ context, (retryOrFail svc message.id .ns context plugin).wp
        (works svc (.task (.send p message token))) (fun _ _ => True) (fun _ _ => True)
        (.sending message.id) := fun context =>
      wp_mono (retryOrFail_works takes_send) (fun _ _ _ => trivial) fun _ _ _ => trivial
    cases answer with
    | error err =>
      change Prog.wp _ (retryOrFail svc message.id .ns _ plugin >>= _) _ _ _
      rw [wp_bind]
      exact wp_mono (hfail _) (fun _ _ _ => trivial) fun _ _ _ => trivial
    | ok x =>
      unfold afterSendOne
      dsimp only
      split
      next =>
        rw [wp_bind]
        exact wp_mono (hfail _) (fun _ _ _ => trivial) fun _ _ _ => trivial
      next =>
        rw [wp_bind]
        exact wp_mono (advance_works fun _ => rfl) (fun _ _ _ => trivial) fun _ _ _ => trivial

theorem cancelOneMessage_works :
    Works svc (.task (.cancelMessage message)) (cancelOneMessage svc message) g := by
  unfold Works cancelOneMessage
  split
  next => trivial
  next =>
    split
    next => trivial
    next plugin _ =>
      have hkey : cancelQueue plugin message ≠ .ns := by
        unfold cancelQueue
        split <;> nofun
      rw [wp_bind]
      unfold claimFromQueue redis
      rw [wp_bind, wp_command]
      refine ⟨fun he => absurd he hkey, ?_⟩
      rintro r g' rfl
      cases r with
      | error e => trivial
      | ok claimed =>
        cases claimed with
        | false => trivial
        | true =>
          rw [wp_pure, if_pos rfl, wp_bind]
          exact wp_mono (purge_works (.inr rfl)) (fun _ _ _ => trivial) fun _ _ _ => trivial

theorem loadIndexed_works {c : String} (keys : List (Option MessageId)) :
    (loadIndexed keys).Keeps (works svc (.cancel c)) fun _ => True := by
  have hload : ∀ id, (redis (.hgetall id)).Keeps (works svc (.cancel c)) fun _ => True :=
    fun id => keeps_redis fun g _ => ⟨trivial, fun _ _ _ => trivial⟩
  induction keys with
  | nil => exact keeps_pure _
  | cons key keys ih =>
    cases key with
    | none => exact ih
    | some id =>
      unfold loadIndexed
      refine keeps_bind (Prog.keeps_tryCatch (hload id) fun _ => keeps_pure _) fun raw => ?_
      refine keeps_bind ?_ fun loaded => keeps_bind ih fun _ => keeps_pure _
      unfold readIndexed
      split
      next => exact keeps_pure _
      next => exact readPicked_keeps _

theorem cancelConcurrently_works {c : String} :
    Works svc (.cancel c) (cancelConcurrently c) g := by
  unfold Works cancelConcurrently getAllMessagesForCorrelationId
  rw [wp_bind]
  refine wp_mono (works_of_keeps (keeps_bind
    (works_redis_aside (c := .mgetCorrelationIndexes _) trivial) fun keys => loadIndexed_works keys)
    g) (fun messages g _ => ?_) fun _ _ _ => trivial
  refine spawnAll_works fun t ht => ?_
  obtain ⟨message, -, rfl⟩ := List.mem_map.mp ht
  exact ⟨trivial, fun _ _ _ he => by cases he⟩

/-- What a handler starts with. -/
def Handler.work (h : Handler) : Work :=
  match h with
  | .task (.send _ message _) => .sending message.id
  | _ => .free

/-- A task fits, and other handlers do. -/
def Handler.Fits (h : Handler) : Prop :=
  match h with
  | .task t => t.Fits
  | _ => True

/-- Every handler is at work on the messages it tells of, sends, retries or purges. -/
theorem handlerProgram_works (hfits : h.Fits) : Works svc h (handlerProgram svc h) h.work := by
  unfold Works
  cases h with
  | enqueue create =>
    change Prog.wp _ (enqueue svc create >>= _) _ _ _
    rw [wp_bind]
    exact wp_mono enqueue_works (fun _ _ _ => trivial) fun _ _ _ => trivial
  | distribute => exact distributeToNetworkServers_works
  | tick => exact tick_works
  | ingress pluginId event =>
    change Prog.wp _ (ingress svc pluginId event) _ _ _
    unfold ingress
    split
    next => trivial
    next =>
      split
      next =>
        rw [wp_bind]
        exact wp_mono (processEvent_works fun id g => takes_ingress) (fun _ _ _ => trivial)
          fun _ _ _ => trivial
      next => trivial
  | cancel c => exact cancelConcurrently_works
  | task t =>
    cases t with
    | drain queue now => exact drainRow_works hfits
    | distributeQueue queueKey => exact distributeQueue_works
    | send p message token => exact send_works
    | cancelMessage message =>
      change Prog.wp _ (cancelOneMessage svc message >>= _) _ _ _
      rw [wp_bind]
      exact wp_mono cancelOneMessage_works (fun _ _ _ => trivial) fun _ _ _ => trivial

end DeviceMessaging
