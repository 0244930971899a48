import DeviceMessaging.Provenance

namespace DeviceMessaging

open Effect

/-- Requests by the ids their messages were given. -/
abbrev Requests :=
  List (MessageId × CreateDeviceMessage)

variable (svc : Service)

/-- The ready queue the messages of a request wait in. -/
def CreateDeviceMessage.home (dto : CreateDeviceMessage) : Option QueueKey :=
  (svc.registry.delivery dto.pluginId).map fun plugin =>
    plugin.initialQueueKey (dto.networkId.map fun n => some n) dto.device

/-- What a loaded message has of its request. -/
structure OfRequest (dto : CreateDeviceMessage) (m : DeviceMessage) : Prop where
  pluginId : m.pluginId = some dto.pluginId
  networkId : m.networkId = dto.networkId.map fun n => some (n : Int)
  device : m.device = dto.device
  correlationId : m.correlationId = dto.correlationId
  phase : m.phase = dto.phase
  priority : m.priority = some dto.priority.parseInt
  counted : m.retryCount ≠ none

/-- The message is one of the requests. -/
def Requested (g : Requests) (m : DeviceMessage) : Prop :=
  ∃ dto, (m.id, dto) ∈ g ∧ OfRequest dto m

/-- A move along the pipeline of a registered plugin. -/
def Advances (a : MoveArgs) : Prop :=
  ∃ plugin fromStage next, svc.registry.delivery plugin.id = some plugin ∧
    nextStage plugin.deliveryPattern fromStage = some next ∧
    a.sourceQueue = stageKeyFor fromStage plugin.id ∧
    a.destinationQueue = stageKeyFor next plugin.id ∧
    a.deliveryStatus = (stages next).entryStatus ∧ a.destinationScore ≠ none

/-- A move back to the ready queue of the request, scored by its priority as read. -/
def Requeues (g : Requests) (a : MoveArgs) : Prop :=
  ∃ dto, (a.messageId, dto) ∈ g ∧ a.sourceQueue = .retry ∧
    dto.home svc = some a.destinationQueue ∧ a.deliveryStatus = .QUEUED ∧
    a.destinationScore = some (-1 * (dto.priority.parseInt : ℚ))

/-- The cap a pick is made under. -/
def TakesSlot (admission : Admission) (node : AdmissionNode) (a : FetchArgs) : Prop :=
  match admission with
  | .spacing _ => a.concurrencyRateLimitKey = none
  | .concurrency max => a.concurrencyRateLimitKey = some node ∧ a.maxInFlight = max ∧ 0 < max

/-- A pick from a ready queue of a registered plugin, under its admission. -/
def Picks (a : FetchArgs) : Prop :=
  ∃ node plugin, svc.registry.delivery node.pluginId = some plugin ∧
    a.sourceQueue = .ready node ∧ a.destinationQueue = .ns ∧ a.newStatus = .SENT_TO_NS ∧
    a.timeoutAt ≠ none ∧ TakesSlot plugin.admission node a

/-- Work handed off for the requests there are. -/
def Task.Proper (g : Requests) (t : Task) : Prop :=
  match t with
  | .cancelMessage m => Requested g m
  | _ => True

/-- The commands the service issues, given the requests there are. -/
def Cmd.Proper (g : Requests) (c : Cmd) : Prop :=
  match c with
  | .redis (.enqueueDeviceMessage dto q) => dto.home svc = some q
  | .redis (.moveMessageBetweenQueues a) => Advances svc a ∨ Requeues svc g a
  | .redis (.fetchNextMessageInQueueAndMove a) => Picks svc a
  | .redis (.enterRetry a) => a.dueAt ≠ none ∧ a.retryCount ≠ none
  | .redis (.zaddXx q _ _) => ∃ stage pluginId, q = stageKeyFor stage pluginId
  | .redis (.messageFullCleanup m _) => Requested g m
  | .spawn t => t.Proper g
  | _ => True

/-- A hash that stems from the requests and whose count of retries reads back. -/
def KnownHash (g : Requests) (id : MessageId) (h : MessageHash) : Prop :=
  h.device = none ∨
    ∃ dto, (id, dto) ∈ g ∧ h.HoldsCreate dto ∧ h.retryCount ≠ some .unreadable

/-- What a reply says of the requests. -/
def ReplyKnown (g : Requests) (c : Cmd) (r : Reply c) : Prop :=
  match c, r with
  | .redis (.hgetall id), .ok (some h) => KnownHash g id h
  | .redis (.fetchNextMessageInQueueAndMove _), .ok (some (id, h)) => KnownHash g id h
  | _, _ => True

/-- Programs that issue proper commands, whatever requests come in meanwhile. -/
def sourced : Monitor Cmd Reply Requests where
  allows g c := c.Proper svc g
  next g c r g' := g ⊆ g' ∧ ReplyKnown g' c r

/-- From these requests on the program is proper and ends in `Q`. -/
def Sourced {α : Type} (g : Requests) (p : Engine α) (Q : α → Requests → Prop) : Prop :=
  ∀ g₁, g ⊆ g₁ → p.wp (sourced svc) (fun a g₂ => g₁ ⊆ g₂ ∧ Q a g₂) (fun _ g₂ => g₁ ⊆ g₂) g₁

/-- The program is proper. -/
abbrev IsProper {α : Type} (g : Requests) (p : Engine α) : Prop :=
  Sourced svc g p fun _ _ => True

variable {svc} {g g' : Requests} {α β : Type} {Q : α → Requests → Prop} {R : β → Requests → Prop}

theorem Requested.mono {m : DeviceMessage} (hm : Requested g m) (hg : g ⊆ g') : Requested g' m := by
  obtain ⟨dto, hdto, ho⟩ := hm
  exact ⟨dto, hg hdto, ho⟩

theorem Task.Proper.mono {t : Task} (ht : t.Proper g) (hg : g ⊆ g') : t.Proper g' := by
  cases t with
  | cancelMessage m => exact Requested.mono ht hg
  | _ => trivial

theorem Cmd.Proper.mono {c : Cmd} (hc : c.Proper svc g) (hg : g ⊆ g') : c.Proper svc g' := by
  cases c with
  | redis c =>
    cases c with
    | moveMessageBetweenQueues a =>
      rcases hc with ha | ⟨dto, hdto, hr⟩
      · exact .inl ha
      · exact .inr ⟨dto, hg hdto, hr⟩
    | messageFullCleanup m qs => exact Requested.mono hc hg
    | _ => exact hc
  | spawn t => exact Task.Proper.mono hc hg
  | _ => exact hc

theorem KnownHash.loads {id : MessageId} {h : MessageHash} {m : DeviceMessage}
    (hk : KnownHash g id h) (hm : deserializeMessage id h = .ok m) : Requested g m ∧ m.id = id := by
  obtain ⟨hd, hid, hp, -, -, hc, hph, hn, hr, hpr, -⟩ := deserializeMessage_fields hm
  refine ⟨?_, hid⟩
  rcases hk with hnone | ⟨dto, hdto, hcr, hcount⟩
  · rw [hnone] at hd
    cases hd
  have hf := hcr.fields
  have hplugin := congrArg MessageHash.pluginId hf
  have hdevice := congrArg MessageHash.device hf
  have hnetwork := congrArg MessageHash.networkId hf
  have hcorr := congrArg MessageHash.correlationId hf
  have hphase := congrArg MessageHash.phase hf
  have hprio := congrArg MessageHash.priority hf
  dsimp only [MessageHash.immutable, serializeCreateDeviceMessage] at hplugin hdevice
  dsimp only [MessageHash.immutable, serializeCreateDeviceMessage] at hnetwork hcorr hphase hprio
  refine ⟨dto, hid ▸ hdto, hp.trans hplugin, ?_, ?_, ?_, hph.trans hphase, ?_, ?_⟩
  · rw [hn, hnetwork, Option.map_map]
    rfl
  · rw [hdevice] at hd
    exact (FieldText.text.inj (Option.some.inj hd)).symm
  · rw [hc, hcorr, truthy]
    cases hdto' : dto.correlationId with
    | none => rfl
    | some c =>
      have hne : c ≠ "" := fun e => dto.correlationId_ne (by rw [hdto', e])
      simp [Option.filter, hne]
  · rw [hpr, hprio]
    rfl
  · rw [hr]
    cases hcase : h.retryCount with
    | none => simp [FieldText.parseNumber]
    | some t =>
      cases t with
      | text n => simp [FieldText.parseNumber]
      | unreadable => exact absurd hcase hcount

theorem sourced_pure {a : α} (hQ : ∀ g₁, g ⊆ g₁ → Q a g₁) : Sourced svc g (pure a) Q :=
  fun g₁ hg => ⟨List.Subset.refl _, hQ g₁ hg⟩

theorem proper_pure (a : α) : IsProper svc g (pure a) :=
  sourced_pure fun _ _ => trivial

theorem sourced_throw (e : String) : Sourced svc g (throw e : Engine α) Q :=
  fun _ _ => List.Subset.refl _

theorem sourced_bind {p : Engine α} {f : α → Engine β} (hp : Sourced svc g p Q)
    (hf : ∀ a g₁, g ⊆ g₁ → Q a g₁ → Sourced svc g₁ (f a) R) : Sourced svc g (p >>= f) R := by
  intro g₁ hg
  rw [Prog.wp_bind]
  refine Prog.wp_mono (hp g₁ hg) (fun a g₂ h => ?_) fun _ _ h => h
  obtain ⟨hle, hq⟩ := h
  refine Prog.wp_mono (hf a g₂ (List.Subset.trans hg hle) hq g₂ (List.Subset.refl _)) (fun b g₃ hb => ?_)
    fun _ _ hb => List.Subset.trans hle hb
  exact ⟨List.Subset.trans hle hb.1, hb.2⟩

/-- What follows does not depend on what a program returns. -/
theorem sourced_then {p : Engine α} {f : α → Engine β} (hp : IsProper svc g p)
    (hf : ∀ a g₁, g ⊆ g₁ → Sourced svc g₁ (f a) R) : Sourced svc g (p >>= f) R :=
  sourced_bind hp fun a g₁ hg _ => hf a g₁ hg

theorem IsProper.ensures {p : Engine α} (hp : IsProper svc g p) (hQ : ∀ a g₁, Q a g₁) :
    Sourced svc g p Q :=
  fun g₁ hg => Prog.wp_mono (hp g₁ hg) (fun a g₂ h => ⟨h.1, hQ a g₂⟩) fun _ _ h => h

theorem sourced_tryCatch {p : Engine α} {f : String → Engine α} (hp : Sourced svc g p Q)
    (hf : ∀ e g₁, g ⊆ g₁ → Sourced svc g₁ (f e) Q) : Sourced svc g (tryCatch p f) Q := by
  intro g₁ hg
  rw [Prog.wp_tryCatch]
  refine Prog.wp_mono (hp g₁ hg) (fun _ _ h => h) fun e g₂ hle => ?_
  refine Prog.wp_mono (hf e g₂ (List.Subset.trans hg hle) g₂ (List.Subset.refl _)) (fun b g₃ hb => ?_)
    fun _ _ hb => List.Subset.trans hle hb
  exact ⟨List.Subset.trans hle hb.1, hb.2⟩

theorem sourced_command {c : Cmd} (hc : c.Proper svc g) :
    Sourced svc g (Prog.command c : Engine (Reply c)) fun r g₁ => ReplyKnown g₁ c r :=
  fun _ hg => ⟨hc.mono hg, fun _ _ hr => hr⟩

theorem proper_command {c : Cmd} (hc : c.Proper svc g) :
    IsProper svc g (Prog.command c : Engine (Reply c)) :=
  fun _ hg => ⟨hc.mono hg, fun _ _ hr => ⟨hr.1, trivial⟩⟩

theorem sourced_redis {c : RedisCmd} (hc : Cmd.Proper svc g (.redis c)) :
    Sourced svc g (redis c) fun v g₁ => ReplyKnown g₁ (.redis c) (.ok v) := by
  refine sourced_bind (sourced_command hc) fun r g₁ _ hr => ?_
  cases r with
  | error e => exact sourced_throw e
  | ok v =>
    intro g₂ hg₂
    refine ⟨List.Subset.refl _, ?_⟩
    cases c with
    | hgetall id =>
      cases v with
      | none => trivial
      | some h => exact hr.imp (fun hd => hd) fun ⟨dto, hdto, h⟩ => ⟨dto, hg₂ hdto, h⟩
    | fetchNextMessageInQueueAndMove a =>
      cases v with
      | none => trivial
      | some e => exact hr.imp (fun hd => hd) fun ⟨dto, hdto, h⟩ => ⟨dto, hg₂ hdto, h⟩
    | _ => trivial

theorem proper_redis {c : RedisCmd} (hc : Cmd.Proper svc g (.redis c)) : IsProper svc g (redis c) := by
  intro g₁ hg
  exact Prog.wp_mono (sourced_redis hc g₁ hg) (fun _ _ h => ⟨h.1, trivial⟩) fun _ _ h => h

end DeviceMessaging
