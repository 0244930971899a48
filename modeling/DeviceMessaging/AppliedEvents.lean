import DeviceMessaging.EffectParts
import DeviceMessaging.HandlerCommands

namespace DeviceMessaging

open Effect

/-- An event that is applied: the plugin it comes from, the message whose poll it answers, and
how often a message was loaded for it so far. -/
structure Application where
  plugin : DeliveryPlugin
  event : ParsedIncomingEvent
  polled : Option MessageId
  loads : Nat

def Application.tell (A : Application) (c : Cmd) : Application :=
  match c with
  | .redis (.hgetall _) => { A with loads := A.loads + 1 }
  | _ => A

/-- What is left of `processEvent` in a thread that runs it. -/
abbrev EventPart :=
  Part Cmd Reply String StageOutcome Application

variable (svc : Service)

def applying (plugin : DeliveryPlugin) (event : ParsedIncomingEvent) (polled : Option MessageId) :
    EventPart :=
  some (⟨plugin, event, polled, 0⟩, processEvent svc event plugin)

/-- The answer to a poll begins an application. -/
def eventParts : Parting Cmd Reply String StageOutcome Application where
  tell := Application.tell
  begins c r :=
    match c, r with
    | .fetchStatus pluginId message, .ok (some event) =>
      (svc.registry.delivery pluginId).bind fun plugin =>
        applying svc plugin event (some message.id)
    | _, _ => none

/-- PUSH ingress is an application from its start. -/
def ingressPart (h : Handler) : EventPart :=
  match h with
  | .ingress pluginId event =>
    (svc.registry.delivery pluginId).bind fun plugin =>
      if plugin.deliveryPattern = .PUSH then applying svc plugin event none else none
  | _ => none

/-- The events that the threads of a process apply, as a run goes on. -/
def noteApplications (weather : Weather) (x : Process) (a : Choice Handler Oracle Disturbance)
    (parts : Nat → EventPart) : Nat → EventPart :=
  (engine svc weather).noteParts (eventParts svc) (ingressPart svc) x a parts

variable {svc} {plugin : DeliveryPlugin}

section Following

theorem unbegun {c : Cmd} (hc : ∀ p m, c ≠ .fetchStatus p m) (r : Reply c) :
    (eventParts svc).begins c r = none := by
  cases c with
  | fetchStatus p m => exact absurd rfl (hc p m)
  | _ => rfl

theorem redis_unbegun {c : RedisCmd} : (redis c).Keeps (eventParts svc).follows Part.Idle :=
  keeps_redis (Prog.idle_command (unbegun (by simp)))

theorem enterRetry_unbegun (K : QueueKey → Prop) :
    KeepsRetries svc K (eventParts svc).follows Part.Idle := by
  intro q plugin id n history _ _
  unfold enterRetry
  refine Prog.keeps_bind redis_unbegun fun inQueue => ?_
  cases inQueue with
  | none => exact Prog.keeps_pure _
  | some _ =>
    refine Prog.keeps_bind (Prog.idle_command (unbegun (by simp))) fun now => ?_
    refine Prog.keeps_bind ?_ fun wait => ?_
    · exact Prog.keeps_bind (Prog.idle_command (unbegun (by simp))) fun _ => Prog.keeps_pure _
    · refine Prog.keeps_bind redis_unbegun fun fields => ?_
      exact Prog.keeps_bind redis_unbegun fun _ => Prog.keeps_pure _

/-- What follows an answer that tells of an event is its application. -/
theorem pollTask_begins : KeepsPolls svc (eventParts svc).follows Part.Idle := by
  intro c hreg g hg
  unfold pollTask
  rw [Prog.wp_bind, Prog.wp_command]
  refine ⟨fun t b k he => absurd he hg.ne_step, fun r g' hn => ?_⟩
  cases hn with
  | turn => exact absurd rfl hg.ne_step
  | between _ =>
    cases r with
    | error e => exact hg
    | ok answer =>
      cases answer with
      | none => exact hg
      | some event =>
        have hbegins : (eventParts svc).begins (.fetchStatus c.plugin.id c.message)
            (.ok (some event)) = applying svc c.plugin event (some c.message.id) := by
          simp [eventParts, hreg]
        rw [hbegins]
        exact Prog.part_follows _ _

/-- Whoever applies an event issues the commands of `processEvent`. -/
theorem handlerProgram_inPart (h : Handler) :
    (handlerProgram svc h).wp (eventParts svc).follows (fun _ => Part.Idle) (fun _ => Part.Idle)
      (ingressPart svc h) := by
  have hothers : ∀ h : Handler, (handlerProgram svc h).Keeps (eventParts svc).follows Part.Idle := by
    intro h
    refine handlerProgram_applies (fun c _ hw => Prog.idle_command (unbegun ?_))
      (enterRetry_unbegun _) pollTask_begins
    rintro p m rfl
    cases hw
  cases h with
  | ingress pluginId event =>
    change (ingress svc pluginId event).wp _ _ _ _
    unfold ingress ingressPart
    dsimp only
    cases svc.registry.delivery pluginId with
    | none => exact Part.idle_none
    | some plugin =>
      dsimp only [Option.bind_some]
      split
      next =>
        rw [Prog.wp_bind]
        exact Prog.part_follows _ _
      next => exact Part.idle_none
  | _ => exact hothers _ _ Part.idle_none

end Following

end DeviceMessaging
