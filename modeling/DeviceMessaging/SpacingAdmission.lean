import DeviceMessaging.EffectRecord
import DeviceMessaging.PlainPrograms
import DeviceMessaging.SpacedGrants

namespace DeviceMessaging

open Effect Spacing
open Effect.Prog (wp_mono wp_bind wp_pure wp_command keeps_bind keeps_pure)

/-- How far a handler is with a ready queue: it has not asked for the lock, it was
granted the lock, or it is not going to pick any more. -/
inductive PassPhase
  | outside | admitted | passed
  deriving DecidableEq

/-- Where the reply to a command takes a handler. -/
def PassPhase.after (queueKey : QueueKey) (phase : PassPhase) (c : Cmd) (r : Reply c) : PassPhase :=
  match c, r with
  | .redis (.lockQueueForTimeMs q _), .ok true => if q = queueKey then .admitted else phase
  | .redis (.lockQueueForTimeMs q _), _ => if q = queueKey then .passed else phase
  | .redis (.fetchNextMessageInQueueAndMove a), _ =>
    if a.sourceQueue = queueKey then .passed else phase
  | _, _ => phase

/-- Programs that lock a ready queue once, for the interval, and pick from it only under
the lock. -/
def spaced (queueKey : QueueKey) (minIntervalMs : Nat) : Monitor Cmd Reply PassPhase where
  allows phase c := match c with
    | .redis (.lockQueueForTimeMs q ms) => q = queueKey → phase = .outside ∧ ms = minIntervalMs
    | .redis (.fetchNextMessageInQueueAndMove a) => a.sourceQueue = queueKey → phase = .admitted
    | _ => True
  next phase c r phase' := phase' = phase.after queueKey c r

variable {svc : Service} {queueKey : QueueKey} {minIntervalMs : Nat} {plugin : DeliveryPlugin}

/-- The program neither locks the queue nor picks from it. -/
abbrev KeepsOut {α : Type} (queueKey : QueueKey) (minIntervalMs : Nat) (p : Engine α) : Prop :=
  p.Keeps (spaced queueKey minIntervalMs) (· = .outside)

/-- A command that neither locks nor picks leaves a handler where it is. -/
theorem after_neither {c : Cmd} (hlock : ∀ q ms, c ≠ .redis (.lockQueueForTimeMs q ms))
    (hfetch : ∀ a, c ≠ .redis (.fetchNextMessageInQueueAndMove a)) (phase : PassPhase) :
    (spaced queueKey minIntervalMs).allows phase c ∧ ∀ r, phase.after queueKey c r = phase := by
  cases c with
  | redis c =>
    cases c with
    | lockQueueForTimeMs q ms => exact absurd rfl (hlock q ms)
    | fetchNextMessageInQueueAndMove a => exact absurd rfl (hfetch a)
    | _ => exact ⟨trivial, fun _ => rfl⟩
  | _ => exact ⟨trivial, fun _ => rfl⟩

theorem spaced_neither {J : PassPhase → Prop} {c : Cmd}
    (hlock : ∀ q ms, c ≠ .redis (.lockQueueForTimeMs q ms))
    (hfetch : ∀ a, c ≠ .redis (.fetchNextMessageInQueueAndMove a)) :
    (Prog.command c : Engine (Reply c)).Keeps (spaced queueKey minIntervalMs) J := by
  intro phase hphase
  have hsame : (spaced queueKey minIntervalMs).allows phase c ∧ _ := after_neither hlock hfetch phase
  refine ⟨hsame.1, fun r phase' hnext => ?_⟩
  rw [hnext.trans (hsame.2 r)]
  exact hphase

theorem spaced_plain {J : PassPhase → Prop} (c : Cmd) (hc : c.Plain) :
    (Prog.command c : Engine (Reply c)).Keeps (spaced queueKey minIntervalMs) J := by
  refine spaced_neither (fun q ms => ?_) fun a => ?_
  · rintro rfl
    exact hc
  · rintro rfl
    exact hc

/-- A pass over another queue does not come near this one. -/
theorem distributeQueue_keepsOut {q : QueueKey} (hq : q ≠ queueKey) :
    KeepsOut queueKey minIntervalMs (distributeQueue svc q) := by
  have hsweep : ∀ key, KeepsOut queueKey minIntervalMs
      (validateAndCleanConcurrencyRateLimit key) :=
    sweep_keeps (quiet_of_plain spaced_plain)
      fun _ _ => spaced_neither (fun _ _ => nofun) fun _ => nofun
  refine distributeQueue_keeps spaced_plain hsweep (fun ms => ?_) fun plugin => ?_
  · rintro phase rfl
    refine ⟨fun he => absurd he hq, ?_⟩
    rintro r phase' rfl
    cases r with
    | error e => exact if_neg hq
    | ok locked => cases locked <;> exact if_neg hq
  · refine pickAndTrack_keeps spaced_plain (fun a ha => ?_)
      fun _ _ => spaced_neither (fun _ _ => nofun) fun _ => nofun
    rintro phase rfl
    refine ⟨fun he => absurd (ha.symm.trans he) hq, ?_⟩
    rintro r phase' rfl
    exact if_neg fun he => hq (ha.symm.trans he)

/-- What is allowed of an admitted pass: one pick, and what follows from it. -/
theorem pickAndTrack_spaced : (pickAndTrack svc plugin queueKey).wp (spaced queueKey minIntervalMs)
    (fun _ _ => True) (fun _ _ => True) .admitted := by
  have hrest : ∀ {α : Type} {p : Engine α} (phase : PassPhase),
      p.Keeps (spaced queueKey minIntervalMs) (fun _ => True) →
      p.wp (spaced queueKey minIntervalMs) (fun _ _ => True) (fun _ _ => True) phase :=
    fun phase hp => hp phase trivial
  unfold pickAndTrack pickIntoNs
  rw [wp_bind, wp_bind]
  refine wp_mono (spaced_plain (J := (· = .admitted)) .dateNow trivial .admitted rfl) ?_
    fun _ _ _ => trivial
  rintro now phase rfl
  rw [wp_bind]
  refine wp_mono (entryWaitMs_keeps (J := (· = .admitted)) (quiet_of_plain spaced_plain) _ _
    .admitted rfl) ?_ fun _ _ _ => trivial
  rintro wait phase rfl
  rw [wp_bind]
  unfold redis
  rw [wp_bind, wp_command]
  refine ⟨fun _ => rfl, fun r phase _ => ?_⟩
  cases r with
  | error e => trivial
  | ok raw =>
    rw [wp_pure]
    refine wp_mono (hrest phase (readPicked_keeps raw)) (fun message phase _ => ?_)
      fun _ _ _ => trivial
    cases message with
    | none => trivial
    | some message =>
      exact hrest phase (keeps_bind (emitFirstSend_keeps spaced_plain message)
        fun _ => spaced_neither (fun _ _ => nofun) fun _ => nofun)

variable (hp : (getPluginIdFromInitialQueueKey queueKey).bind svc.registry.delivery = some plugin)
  (ha : plugin.admission = .spacing minIntervalMs)

include hp ha

theorem distributeQueue_spaced : (distributeQueue svc queueKey).wp (spaced queueKey minIntervalMs)
    (fun _ _ => True) (fun _ _ => True) .outside := by
  unfold distributeQueue
  rw [hp]
  change (distributeWith svc plugin queueKey).wp _ _ _ _
  unfold distributeWith canAdmit
  rw [ha, wp_bind]
  unfold redis
  rw [wp_bind, wp_command]
  refine ⟨fun _ => ⟨rfl, rfl⟩, ?_⟩
  rintro r phase rfl
  cases r with
  | error e => trivial
  | ok locked =>
    rw [wp_pure]
    cases locked with
    | false => trivial
    | true =>
      have hphase : PassPhase.after queueKey .outside
          (.redis (.lockQueueForTimeMs queueKey minIntervalMs)) (.ok true) = .admitted := if_pos rfl
      rw [hphase]
      exact pickAndTrack_spaced

/-- Every handler locks the queue for the interval before it picks from it. -/
theorem handlerProgram_spaced (h : Handler) :
    (handlerProgram svc h).wp (spaced queueKey minIntervalMs) (fun _ _ => True) (fun _ _ => True)
      .outside := by
  have hout : ∀ {p : Engine Unit}, KeepsOut queueKey minIntervalMs p →
      p.wp (spaced queueKey minIntervalMs) (fun _ _ => True) (fun _ _ => True) .outside :=
    fun hp => wp_mono (hp .outside rfl) (fun _ _ _ => trivial) fun _ _ _ => trivial
  by_cases hq : ∃ q, h = .task (.distributeQueue q)
  · obtain ⟨q, rfl⟩ := hq
    by_cases he : q = queueKey
    · subst he
      exact distributeQueue_spaced hp ha
    · exact hout (distributeQueue_keepsOut he)
  by_cases hcancel : ∃ m, h = .task (.cancelMessage m)
  · obtain ⟨m, rfl⟩ := hcancel
    exact hout (keeps_bind (cancelOneMessage_keeps (quiet_of_plain spaced_plain) m)
      fun _ => keeps_pure _)
  · refine hout (undistributed_keeps spaced_plain (fun id key priority => ?_)
      (fun plugin message token => ?_) (fun m hm => hcancel ⟨m, hm⟩) fun q he => hq ⟨q, he⟩)
    · exact requeue_keeps (quiet_of_plain spaced_plain)
        (fun a _ _ _ => spaced_neither (fun _ _ => nofun) fun _ => nofun) _ _
    · exact trackedSend_keeps spaced_plain
        (fun _ _ => spaced_neither (fun _ _ => nofun) fun _ => nofun)
        (fun _ _ => spaced_neither (fun _ _ => nofun) fun _ => nofun)
        (fun _ _ => spaced_neither (fun _ _ => nofun) fun _ => nofun) message token

end DeviceMessaging
