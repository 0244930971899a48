import DeviceMessaging.Admission
import DeviceMessaging.StatusQueue

namespace DeviceMessaging

open Effect
open Effect.Prog (wp_mono wp_bind wp_pure wp_command wp_tryCatch keeps_bind keeps_pure)

/-- What a handler knows of the members of rate limits: ids it has seen there, and
those of them whose message was gone. -/
structure Sweep where
  seen : List MessageId := []
  dead : List MessageId := []

/-- Programs that sweep only members they found dead. -/
def sweeps : Monitor Cmd Reply Sweep where
  allows g c := match c with
    | .redis (.sremRateLimit _ ids) => ids ⊆ g.dead
    | _ => True
  next g c r g' := g.seen ⊆ g'.seen ∧ g.dead ⊆ g'.dead ∧ match c, r with
    | .redis (.smembersRateLimit _), .ok ids => ids ⊆ g'.seen
    | .redis (.existsMessage id), .ok false => id ∈ g.seen → id ∈ g'.dead
    | _, _ => True

/-- The program sweeps only what it found dead. -/
abbrev SweepsFound {α : Type} (p : Engine α) : Prop :=
  p.Keeps sweeps fun _ => True

variable {svc : Service}

theorem sweepsFound_command {c : Cmd} (hc : ∀ g, sweeps.allows g c) :
    SweepsFound (Prog.command c : Engine (Reply c)) :=
  fun g _ => ⟨hc g, fun _ _ _ => trivial⟩

theorem sweepsFound_plain {c : Cmd} (hc : c.Plain) :
    SweepsFound (Prog.command c : Engine (Reply c)) := by
  refine sweepsFound_command fun g => ?_
  cases c with
  | redis c =>
    cases c with
    | sremRateLimit => exact hc.elim
    | _ => trivial
  | _ => trivial

/-- What an `EXISTS` of a seen member finds out. -/
theorem existsMessage_sweep {g : Sweep} {id : MessageId} (hid : id ∈ g.seen) :
    (tryCatch (redis (.existsMessage id)) fun _ => pure true : Engine Bool).wp sweeps
      (fun live g' => g.seen ⊆ g'.seen ∧ g.dead ⊆ g'.dead ∧ (live = false → id ∈ g'.dead))
      (fun _ _ => True) g := by
  unfold redis
  simp only [wp_tryCatch, wp_bind, wp_command]
  refine ⟨trivial, fun r g' hg => ?_⟩
  obtain ⟨hseen, hdead, hr⟩ := hg
  cases r with
  | error e => exact ⟨hseen, hdead, fun he => by cases he⟩
  | ok live =>
    refine ⟨hseen, hdead, ?_⟩
    rintro rfl
    exact hr hid

/-- The members reported dead were found dead. -/
theorem deadMembers_sweep {ids : List MessageId} {g : Sweep} (hids : ids ⊆ g.seen) :
    (deadMembers ids).wp sweeps (fun dead g' => g.dead ⊆ g'.dead ∧ dead ⊆ g'.dead)
      (fun _ _ => True) g := by
  induction ids generalizing g with
  | nil => exact ⟨List.Subset.refl _, List.nil_subset _⟩
  | cons id ids ih =>
    unfold deadMembers
    rw [wp_bind]
    refine wp_mono (existsMessage_sweep (hids List.mem_cons_self)) (fun live g₁ h₁ => ?_)
      fun _ _ _ => trivial
    obtain ⟨hseen, hdead, hlive⟩ := h₁
    rw [wp_bind]
    have hrest : ids ⊆ g₁.seen := fun x hx => hseen (hids (List.mem_cons_of_mem _ hx))
    refine wp_mono (ih hrest) (fun dead g₂ h₂ => ?_) fun _ _ _ => trivial
    refine ⟨List.Subset.trans hdead h₂.1, ?_⟩
    cases live with
    | true => exact h₂.2
    | false => exact List.cons_subset.mpr ⟨h₂.1 (hlive rfl), h₂.2⟩

theorem validateAndClean_sweep (key : AdmissionNode) :
    SweepsFound (validateAndCleanConcurrencyRateLimit key) := by
  intro g _
  unfold validateAndCleanConcurrencyRateLimit
  rw [wp_bind]
  unfold redis
  simp only [wp_bind, wp_command]
  refine ⟨trivial, fun r g₁ h₁ => ?_⟩
  obtain ⟨-, -, hseen⟩ := h₁
  cases r with
  | error e => trivial
  | ok members =>
    rw [wp_pure]
    refine wp_mono (deadMembers_sweep hseen) (fun dead g₂ h₂ => ?_) fun _ _ _ => trivial
    split
    next => trivial
    next =>
      simp only [wp_bind, wp_command]
      refine ⟨h₂.2, fun r g₃ _ => ?_⟩
      cases r <;> trivial

theorem handlerProgram_sweeps (h : Handler) : SweepsFound (handlerProgram svc h) := by
  have hplain : ∀ c : Cmd, c.Plain → SweepsFound (Prog.command c : Engine (Reply c)) :=
    fun c hc => sweepsFound_plain hc
  by_cases hcancel : ∃ m, h = .task (.cancelMessage m)
  · obtain ⟨m, rfl⟩ := hcancel
    exact keeps_bind (cancelOneMessage_keeps (quiet_of_plain hplain) m) fun _ => keeps_pure _
  · refine handlerProgram_keeps hplain (fun id key priority => ?_) validateAndClean_sweep
      (fun _ _ => sweepsFound_command fun _ => trivial) (fun plugin queueKey => ?_) (fun plugin m token => ?_) fun m hm => hcancel ⟨m, hm⟩
    · exact requeue_keeps (quiet_of_plain hplain)
        (fun a _ _ _ => sweepsFound_command fun _ => trivial) _ _
    · exact pickAndTrack_keeps hplain (fun a _ => sweepsFound_command fun _ => trivial)
        (fun p m => sweepsFound_command fun _ => trivial)
    · exact trackedSend_keeps hplain (fun p m => sweepsFound_command fun _ => trivial)
        (fun p m => sweepsFound_command fun _ => trivial)
        (fun id n => sweepsFound_command fun _ => trivial) _ _

/-- What a handler knows is so. -/
def Sweep.Holds (g : Sweep) (s : Store) : Prop :=
  g.seen ⊆ s.named ∧ ∀ id ∈ g.dead, id ∈ s.named ∧ s.redis.messages id = none

/-- All there is to know. -/
def Store.sweep (s : Store) : Sweep where
  seen := s.named
  dead := s.named.filter fun id => (s.redis.messages id).isNone

/-- All handlers under watch of their sweeps. -/
def sweeping : Watch Cmd Reply Handler World Sweep where
  monitor _ := sweeps
  ends _ _ := True
  holds _ g w := g.Holds w.store

/-- Retries find the message as they read it, and its hash still stored. -/
def Retries (c : RedisCmd) (s : Store) : Prop :=
  Steady c s ∧ HashStands c s

variable {weather : Weather} {x y : Process} {s : Store} {c : RedisCmd} {i id : MessageId}

/-- A message that is gone stays gone. -/
theorem gone_exec (hstands : HashStands c s) (hf : c.Fresh i s) (hid : id ∈ s.named)
    (hnone : s.redis.messages id = none) : (s.exec c i).2.redis.messages id = none := by
  rw [Option.eq_none_iff_forall_ne_some]
  intro h hh
  have hw := exec_hashWrite s c i
  generalize (s.exec c i).2.redis.messages = f at hw hh
  have hput : ∀ {m : MessageId} {g : MessageHash}, id ≠ m →
      Function.update s.redis.messages m (some g) id ≠ some h := by
    intro m g hne
    rw [Function.update_of_ne hne, hnone]
    exact nofun
  cases hw with
  | keep => exact absurd (hnone.symm.trans hh) nofun
  | @enqueue dto q =>
    refine hput (m := i) (fun e => ?_) hh
    exact (hf rfl).2 (e ▸ hid)
  | @move a g hg => exact hput (fun e => by rw [← e, hnone] at hg; cases hg) hh
  | @pick a m g hg => exact hput (fun e => by rw [← e, hnone] at hg; cases hg) hh
  | @retry a =>
    refine hput (m := a.messageId) (fun e => ?_) hh
    exact hstands (e ▸ hnone)
  | @purge m => exact absurd (hnone.symm.trans (update_none_cases hh).2) nofun

theorem Store.sweep_holds (s : Store) : s.sweep.Holds s := by
  refine ⟨List.Subset.refl _, fun id hid => ?_⟩
  obtain ⟨hnamed, hnone⟩ := List.mem_filter.mp hid
  exact ⟨hnamed, by simpa using hnone⟩

theorem Sweep.Holds.known {g : Sweep} (hg : g.Holds s) :
    g.seen ⊆ s.sweep.seen ∧ g.dead ⊆ s.sweep.dead := by
  refine ⟨hg.1, fun id hid => ?_⟩
  obtain ⟨hnamed, hnone⟩ := hg.2 id hid
  exact List.mem_filter.mpr ⟨hnamed, by simp [hnone]⟩

theorem Sweep.Holds.exec {g : Sweep} (hg : g.Holds s) (hstands : HashStands c s)
    (hf : c.Fresh i s) : g.Holds (s.exec c i).2 := by
  refine ⟨fun id hid => named_exec s c i id (hg.1 hid), fun id hid => ?_⟩
  obtain ⟨hnamed, hnone⟩ := hg.2 id hid
  exact ⟨named_exec s c i id hnamed, gone_exec hstands hf hnamed hnone⟩

theorem Sweep.Holds.disturb {g : Sweep} (hg : g.Holds s) (d : Disturbance) :
    g.Holds (s.disturb d) := by
  cases d with
  | expireMessage m =>
    refine ⟨hg.1, fun id hid => ⟨(hg.2 id hid).1, ?_⟩⟩
    rw [Option.eq_none_iff_forall_ne_some]
    intro h hh
    have hh := (update_none_cases hh).2
    rw [(hg.2 id hid).2] at hh
    cases hh
  | _ => exact hg

/-- What the reply to a command tells of rate limits is so. -/
theorem sweep_reply {o : Oracle} {c : Cmd} {w w' : World} {r : Reply c} {g : Sweep}
    (hs : SlotsKept svc w.store) (hg : g.Holds w'.store) (hr : respond o c w = some (r, w')) :
    sweeps.next g c r w'.store.sweep := by
  refine ⟨hg.known.1, hg.known.2, ?_⟩
  split
  next key ids =>
    obtain ⟨-, ⟨-, hv, hw⟩ | ⟨-, hv, -⟩ | ⟨-, hv, -⟩⟩ := execRedis_cases hr
    · intro id hid
      cases hv
      rw [hw]
      exact named_exec _ _ _ _ (hs.named id key hid)
    · cases hv
    · cases hv
  next id =>
    obtain ⟨-, ⟨-, hv, hw⟩ | ⟨-, hv, -⟩ | ⟨-, hv, -⟩⟩ := execRedis_cases hr
    · intro hid
      refine List.mem_filter.mpr ⟨hg.1 hid, ?_⟩
      have hnone : (w.store.redis.messages id).isSome = false := (Except.ok.inj hv).symm
      have hsame : w'.store.redis.messages = w.store.redis.messages := by rw [hw]; rfl
      simp only [hsame]
      simpa using hnone
    · cases hv
    · cases hv
  next => trivial

/-- Every handler sweeps only what it found dead. -/
def Swept (x : Process) : Prop :=
  ∀ t ∈ x.threads, sweeping.Vouches t x.world

theorem swept_next {a : Choice Handler Oracle Disturbance} (hs : SlotsKept svc x.world.store)
    (hx : Swept x) (ha : OnCommand Retries x a) (hy : (engine svc weather).next a x = some y) :
    Swept y := by
  have hstable : ∀ g : Sweep, g.Holds x.world.store → g.Holds y.world.store := by
    intro g hg
    rcases store_next hy with he | ⟨i, o, h, c, rfl, hw, hf, he⟩ | ⟨d, -, he⟩ <;> rw [he]
    · exact hg
    · exact hg.exec (ha i o h c rfl hw).2 hf
    · exact hg.disturb d
  refine System.vouched_next hx hy (fun h w _ _ => ?_) (fun h g hg => hstable g hg) ?_
  · refine ⟨{}, ?_, List.nil_subset _, fun id hid => nomatch hid⟩
    exact handlerProgram_sweeps h {} trivial
  · intro i o h c r w g hturn hw hr _ hg
    simp only [engine] at hr
    split at hr
    next =>
      have hg' : g.Holds w.store := by
        rcases respond_store hr with he | ⟨c', rfl, hf, he⟩ <;> rw [he]
        · exact hg
        · exact hg.exec (ha i o h c' hturn hw).2 hf
      exact ⟨w.store.sweep, sweep_reply hs hg' hr, w.store.sweep_holds⟩
    next => cases hr

/-- What a waiting sweep takes out is not stored. -/
theorem Swept.dead (hx : Swept x) {n : Nat} {h : Handler} (hw : x.waiting n = some (h, .redis c)) :
    SweepsDead c x.world.store := by
  obtain ⟨p, hp, hc⟩ := Config.waiting_mem hw
  obtain ⟨g, hwp, hg⟩ := hx _ hp
  cases p with
  | step c' k =>
    cases hc
    cases c with
    | sremRateLimit key ids => exact fun id hid => (hg.2 id (hwp.1 hid)).2
    | _ => trivial
  | pure a => cases hc
  | fail e => cases hc

theorem reached_slotsKept (hx : Reached svc weather (OnCommand Retries) x) :
    SlotsKept svc x.world.store := by
  have hall : Commissioned svc x ∧ Swept x ∧ SlotsKept svc x.world.store := by
    refine hx.invariant (I := fun x => Commissioned svc x ∧ Swept x ∧ SlotsKept svc x.world.store)
      ⟨commissioned_initial, fun t ht => ?_, slotsKept_empty⟩ ?_
    · cases ht
    · rintro x y a ⟨hc, hsw, hs⟩ ha hy
      refine ⟨hc.next hy, swept_next hs hsw ha hy, ?_⟩
      rcases store_next hy with he | ⟨i, o, h, c, rfl, hw, hf, he⟩ | ⟨d, -, he⟩ <;> rw [he]
      · exact hs
      · obtain ⟨hst, hstands⟩ := ha i o h c rfl hw
        exact slotsKept_exec hs hc.provenance (hc.proper hw) hst hstands (hsw.dead hw) hf
      · exact slotsKept_disturb hs d
  exact hall.2.2

/-- A stored message of a ready queue that is at the network server or awaits its task. -/
structure InFlight (svc : Service) (s : Store) (node : AdmissionNode) (id : MessageId) : Prop where
  requested : ∃ dto, (id, dto) ∈ s.enqueued ∧ dto.home svc = some (.ready node)
  stored : s.redis.messages id ≠ none
  queued : id ∈ s.redis.queues .ns ∨ ∃ pluginId, id ∈ s.redis.queues (.awaitingTask pluginId)

theorem SlotsKept.inFlight_holds (hs : SlotsKept svc s) (hprov : Provenance s) {node : AdmissionNode}
    {plugin : DeliveryPlugin} {max : Nat} (hp : svc.registry.delivery node.pluginId = some plugin)
    (ha : plugin.admission = .concurrency max) (hid : InFlight svc s node id) :
    id ∈ s.redis.rateLimits node := by
  obtain ⟨⟨dto, hdto, hhome⟩, hstored, hqueue⟩ := hid
  obtain ⟨h, hh⟩ := Option.ne_none_iff_exists'.mp hstored
  have hslot := hs.slots id h hh
  refine (hslot.held node).mpr (hslot.flying ?_ node plugin max ?_ hp ha)
  · rcases hqueue with hq | ⟨p, hq⟩ <;> rw [status_waits (hslot.placed _ hq)] <;> simp
  · rw [(hs.origin hprov hh hdto).home, hhome]

theorem SlotsKept.waiting_holds_none (hs : SlotsKept svc s) {h : MessageHash}
    (hh : s.redis.messages id = some h) (hw : h.Waits) (node : AdmissionNode) :
    id ∉ s.redis.rateLimits node := by
  have hslot := hs.slots id h hh
  rw [hslot.held node, hslot.waiting hw]
  exact nofun

/-- Programs run in one go whose retries are steady. -/
def steadily : Monitor Cmd Reply World where
  allows w c := ∀ c', c = .redis c' → Steady c' w.store
  next := calmExec anyPoll

theorem steadily_redis {E : String → World → Prop} {w : World} {Q : c.Value → World → Prop}
    (hc : c.drawsId = false) (hst : Steady c w.store)
    (hq : Prog.Ends Q E (w.store.exec c "").1 (w.after c "")) :
    (redis c).wp steadily Q E w := by
  unfold redis
  rw [wp_bind, wp_command]
  refine ⟨fun c' he => by cases he; exact hst, fun r w' hr => ?_⟩
  obtain ⟨j, -, rfl, rfl⟩ := calmExec_redis.mp hr
  rw [World.after, exec_plain hc w.store j ""]
  rw [World.after] at hq
  cases he : (w.store.exec c "").1 <;> rw [he] at hq <;> exact hq

theorem steadily_now {E : String → World → Prop} {w : World} {Q : Nat → World → Prop}
    (hq : ∀ now, Q now w) : dateNow.wp steadily Q E w := by
  unfold dateNow
  rw [wp_command]
  refine ⟨fun c' he => (nomatch he), fun now w' hr => ?_⟩
  obtain ⟨-, o, -, hr⟩ := hr
  cases hr
  exact hq _

theorem steadily_random {E : String → World → Prop} {w : World} {Q : ℚ → World → Prop}
    (hq : ∀ k, Q k w) : mathRandom.wp steadily Q E w := by
  unfold mathRandom
  rw [wp_command]
  refine ⟨fun c' he => (nomatch he), fun k w' hr => ?_⟩
  obtain ⟨-, o, -, hr⟩ := hr
  simp only [respond] at hr
  split at hr
  next =>
    cases hr
    exact hq _
  next => cases hr

/-- A retry that is executed in one go finds the message as it read it. -/
theorem enterRetry_steady (w : World) (messageId : MessageId) (fromKey : QueueKey) (n : ParsedInt)
    (history : List FailureReason) (plugin : DeliveryPlugin) :
    (enterRetry svc messageId fromKey n history plugin).wp steadily (fun _ _ => True)
      (fun _ _ => True) w := by
  unfold enterRetry
  rw [wp_bind]
  refine steadily_redis rfl trivial ?_
  have hscored : ∀ k, (w.store.redis.queues fromKey).score messageId = some k →
      messageId ∈ w.store.redis.queues fromKey :=
    fun k hk => SortedSet.mem_iff.mpr ⟨k, SortedSet.score_eq_some.mp hk⟩
  change Prog.Ends _ _ (Except.ok ((w.store.redis.queues fromKey).score messageId)) _
  cases hscore : (w.store.redis.queues fromKey).score messageId with
  | none => trivial
  | some k =>
    have hm := hscored k hscore
    unfold Prog.Ends
    dsimp only
    rw [wp_bind]
    refine steadily_now fun now => ?_
    rw [wp_bind]
    refine (wp_bind _ _).mpr (steadily_random fun random => ?_)
    rw [wp_pure, wp_bind]
    refine steadily_redis rfl trivial ?_
    dsimp only [Store.exec, RedisCmd.run, Prog.Ends]
    rw [wp_bind]
    refine steadily_redis rfl ⟨hm, rfl⟩ ?_
    cases ((w.after (.zscore fromKey messageId) "").after (.hmget messageId) "").store.exec _ "" |>.1 <;>
      trivial

/-- In every run whose retries find the message as they read it and its hash still
stored, the rate limit of a ready queue whose plugin caps its messages in flight has
no more members than the cap; the messages of the queue at the network server or
awaiting their task are members, those that wait are not, and so there are no more
messages in flight than the cap. -/
theorem reached_capped {node : AdmissionNode} {plugin : DeliveryPlugin} {max : Nat}
    (hp : svc.registry.delivery node.pluginId = some plugin)
    (ha : plugin.admission = .concurrency max)
    (hx : Reached svc weather (OnCommand Retries) x) :
    (x.world.store.redis.rateLimits node).card ≤ max ∧
    (∀ id, InFlight svc x.world.store node id → id ∈ x.world.store.redis.rateLimits node) ∧
    (∀ id h, x.world.store.redis.messages id = some h →
      h.deliveryStatus = some .QUEUED ∨ h.deliveryStatus = some .TO_RETRY →
      id ∉ x.world.store.redis.rateLimits node) ∧
    ∀ ids : List MessageId, ids.Nodup → (∀ id ∈ ids, InFlight svc x.world.store node id) →
      ids.length ≤ max := by
  have hs := reached_slotsKept hx
  have hprov := reached_provenance hx
  have hcap := hs.capped node plugin max hp ha
  refine ⟨hcap, fun id hid => hs.inFlight_holds hprov hp ha hid,
    fun id h hh hw => hs.waiting_holds_none hh hw node, fun ids hnodup hids => ?_⟩
  have hsub : ids ⊆ (x.world.store.redis.rateLimits node).members :=
    fun id hid => hs.inFlight_holds hprov hp ha (hids id hid)
  exact le_trans (List.subperm_of_subset hnodup hsub).length_le hcap

/-- The send of a command that a cap of five lets through fails. -/
def slottedSend : List (Choice Handler Oracle Disturbance) :=
  List.flatten [
    [.start (.enqueue pullCreate), .turn 0 { id := sampleId }, .start .distribute], turns 1 2 {},
    [.start (.task (.distributeQueue pullQueue))], turns 2 8 {},
    [.start (.task (.send "calin-api-v1" pullMessage 0))], turns 3 4 { sent := .error {} }]

def slotNode : AdmissionNode :=
  ⟨"calin-api-v1", "dcu", "7"⟩

def steadyCheck (c : RedisCmd) (s : Store) : Bool :=
  match c with
  | .enterRetry a => decide (a.messageId ∈ s.redis.queues a.fromKey ∧
      a.concurrencyRateLimitKey = (s.redis.messages a.messageId).bind (·.concurrencyRateLimitKey))
  | _ => true

theorem steadyCheck_sound (c : RedisCmd) (s : Store) (h : steadyCheck c s = true) : Steady c s := by
  cases c with
  | enterRetry a =>
    have hd := of_decide_eq_true h
    exact hd
  | _ => trivial

/-- Its retry gives the slot back. -/
theorem retried_gives_slot_back :
    ∃ x : Process, ∃ h, x.world.store.redis.messages sampleId = some h ∧
      h.deliveryStatus = some .TO_RETRY ∧ sampleId ∉ x.world.store.redis.rateLimits slotNode := by
  obtain ⟨x, hx, hr⟩ := exists_reached vendorService { expiry := true }
    (checkCommand fun c s => steadyCheck c s && hashStandsCheck c s) (slottedSend ++ turns 3 5 {})
    (fun x => (x.world.store.redis.messages sampleId).any
      fun h => h.deliveryStatus = some .TO_RETRY)
    (onCommand_of_check (p := Retries) fun c s h =>
      have hd := Bool.and_eq_true_iff.mp h
      ⟨steadyCheck_sound c s hd.1, hashStandsCheck_sound c s hd.2⟩) (by decide +kernel)
  obtain ⟨h, hh, hr⟩ := (Option.any_eq_true _ _).mp hr
  have hst := of_decide_eq_true hr
  have hcap := @reached_capped _ _ x slotNode (calinApiV1 {}) 5 rfl rfl hx
  exact ⟨x, h, hh, hst, hcap.2.2.1 sampleId h hh (.inr hst)⟩

/-- The hash expires after it was read and before the retry: what the retry puts
in its place does not name the slot, and the message to retry keeps it. -/
theorem retry_keeps_slot :
    ¬ ∀ x, Reached vendorService { expiry := true } (OnCommand Steady) x →
      ∀ id h node, x.world.store.redis.messages id = some h →
        h.deliveryStatus = some .QUEUED ∨ h.deliveryStatus = some .TO_RETRY →
        id ∉ x.world.store.redis.rateLimits node := by
  intro hall
  obtain ⟨x, hx, hr⟩ := exists_reached vendorService { expiry := true } (checkCommand steadyCheck)
    (List.flatten [slottedSend, [.disturb (.expireMessage sampleId)], turns 3 5 {}])
    (fun x => ((x.world.store.redis.messages sampleId).any
        fun h => h.deliveryStatus = some .TO_RETRY) &&
      decide (sampleId ∈ x.world.store.redis.rateLimits slotNode))
    (onCommand_of_check steadyCheck_sound) (by decide +kernel)
  rw [Bool.and_eq_true] at hr
  obtain ⟨h, hh, hst⟩ := (Option.any_eq_true _ _).mp hr.1
  exact hall x hx sampleId h slotNode hh (.inr (of_decide_eq_true hst)) (of_decide_eq_true hr.2)

end DeviceMessaging
