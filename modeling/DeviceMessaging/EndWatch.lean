import DeviceMessaging.Handlers

namespace DeviceMessaging

open Effect

/-- Where a handler stands with the end of a message: it has stored the terminal
event and owes the purge, or the event was refused. -/
inductive EndPhase
  | idle
  | emitted (id : MessageId)
  | refused (id : MessageId)

/-- Commands that leave a message and its places as they are: those of the
process, the vendor calls, and a new score for a member that is still there. -/
def Cmd.isHarmless (c : Cmd) : Bool :=
  match c with
  | .redis (.zaddXx ..) => true
  | .redis _ => false
  | _ => true

def Cmd.isLoad (c : Cmd) : Bool :=
  match c with
  | .redis (.hgetall _) => true
  | _ => false

/-- The message a command deletes for good. -/
def Cmd.purges (c : Cmd) : Option MessageId :=
  match c with
  | .redis (.messageFullCleanup message _) => some message.id
  | _ => none

def EndPhase.allows (g : EndPhase) (c : Cmd) : Prop :=
  match g with
  | idle => c.purges = none
  | emitted id => c.purges = some id
  | refused _ => c.isHarmless = true ∨ c.isLoad = true

def EndPhase.next (g : EndPhase) (c : Cmd) (r : Reply c) : EndPhase :=
  match c, r with
  | .redis (.webhookEnqueue record _), .ok _ => record.terminalOf.elim .idle .emitted
  | .redis (.webhookEnqueue record _), .error _ => record.terminalOf.elim .idle .refused
  | .redis (.zaddXx ..), _ => g
  | .redis _, _ => .idle
  | _, _ => g

/-- A hash that names its plugin, unless it cannot be loaded at all. -/
def MessageHash.NamesPlugin (h : MessageHash) : Prop :=
  h.device = none ∨ ∃ p, h.pluginId = some p ∧ p ≠ ""

/-- What the store lets a reply look like. -/
def ReplyFits (c : Cmd) (r : Reply c) : Prop :=
  match c, r with
  | .redis (.hgetall _), .ok (some h) => h.NamesPlugin
  | .redis (.fetchNextMessageInQueueAndMove a), .ok (some (_, h)) =>
    h.deliveryStatus = some a.newStatus
  | _, _ => True

/-- Who deletes a message has just stored its terminal event. -/
def endWatch : Monitor Cmd Reply EndPhase where
  allows := EndPhase.allows
  next g c r g' := ReplyFits c r ∧ g' = g.next c r

/-- No purge is owed. -/
def EndPhase.Calm (g : EndPhase) : Prop :=
  ∀ id, g ≠ emitted id

@[simp] theorem calm_idle : EndPhase.idle.Calm :=
  fun _ h => nomatch h

@[simp] theorem calm_refused {id : MessageId} : (EndPhase.refused id).Calm :=
  fun _ h => nomatch h

/-- A program that starts and returns with nothing owed. -/
def FromIdle {α : Type} (p : Engine α) : Prop :=
  p.wp endWatch (fun _ g => g = .idle) (fun _ g => g.Calm) .idle

/-- A program that may also start after a refusal, and end after one. -/
def FromCalm {α : Type} (p : Engine α) : Prop :=
  ∀ g : EndPhase, g.Calm → p.wp endWatch (fun _ g => g.Calm) (fun _ g => g.Calm) g

theorem fromIdle_pure {α : Type} (a : α) : FromIdle (pure a) :=
  rfl

theorem fromIdle_throw {α : Type} (e : String) : FromIdle (throw e : Engine α) :=
  calm_idle

theorem fromIdle_bind {α β : Type} {p : Engine α} {f : α → Engine β} (hp : FromIdle p)
    (hf : ∀ a, FromIdle (f a)) : FromIdle (p >>= f) := by
  unfold FromIdle
  rw [Prog.wp_bind]
  refine Prog.wp_mono hp (fun a g hg => ?_) fun _ _ hg => hg
  subst hg
  exact hf a

/-- Commands that neither report nor delete a message. -/
def Cmd.isPlain (c : Cmd) : Bool :=
  match c with
  | .redis (.webhookEnqueue ..) => false
  | .redis (.messageFullCleanup ..) => false
  | _ => true

theorem isPlain_purges {c : Cmd} (h : c.isPlain = true) : c.purges = none := by
  cases c with
  | redis c => cases c <;> first | rfl | cases h
  | _ => rfl

theorem isPlain_next {c : Cmd} (h : c.isPlain = true) (r : Reply c) :
    EndPhase.idle.next c r = .idle := by
  cases c with
  | redis c => cases c <;> first | rfl | cases h
  | _ => rfl

theorem fromIdle_command {c : Cmd} (h : c.isPlain = true) :
    FromIdle (Prog.command c : Engine (Reply c)) := by
  refine ⟨isPlain_purges h, fun r g hg => ?_⟩
  rw [hg.2]
  exact isPlain_next h r

theorem fromIdle_redis {c : RedisCmd} (h : (Cmd.redis c).isPlain = true) :
    FromIdle (redis c) := by
  refine fromIdle_bind (fromIdle_command h) fun v => ?_
  cases v with
  | ok v => exact fromIdle_pure v
  | error e => exact fromIdle_throw e

theorem fromCalm_of_fromIdle {α : Type} {p : Engine α} (hp : FromIdle p) :
    p.wp endWatch (fun _ g => g.Calm) (fun _ g => g.Calm) .idle :=
  Prog.wp_mono hp (fun _ _ hg => hg ▸ calm_idle) fun _ _ hg => hg

/-- A message as it loads: it has its id and names its plugin. -/
def LoadedAs (id : MessageId) (message : DeviceMessage) : Prop :=
  message.id = id ∧ ∃ p, message.pluginId = some p ∧ p ≠ ""

theorem loadedAs_deserialize {id : MessageId} {h : MessageHash} {message : DeviceMessage}
    (hh : h.NamesPlugin) (hm : deserializeMessage id h = .ok message) : LoadedAs id message := by
  obtain ⟨hd, hid, hp, -⟩ := deserializeMessage_fields hm
  refine ⟨hid, ?_⟩
  rw [hp]
  rcases hh with hh | hh
  · rw [hh] at hd
    cases hd
  · exact hh

theorem getMessageById_watch {id : MessageId} {g : EndPhase} (hg : g.Calm) :
    (getMessageById id).wp endWatch
      (fun message g => g = .idle ∧ ∀ m, message = some m → LoadedAs id m)
      (fun _ g => g.Calm) g := by
  have hallow : g.allows (.redis (.hgetall id)) := by
    cases g with
    | idle => rfl
    | emitted i => exact absurd rfl (hg i)
    | refused i => exact .inr rfl
  unfold getMessageById redis
  rw [Prog.wp_bind, Prog.wp_bind, Prog.wp_command]
  refine ⟨hallow, fun r g' hr => ?_⟩
  obtain ⟨hfit, rfl⟩ := hr
  cases r with
  | error e => exact calm_idle
  | ok raw =>
    cases raw with
    | none => exact ⟨rfl, fun _ h => nomatch h⟩
    | some h =>
      simp only [Prog.wp_pure, readHash, Option.map_some, readPicked]
      cases hm : deserializeMessage id h with
      | error e => exact calm_idle
      | ok m =>
        refine ⟨rfl, fun m' hm' => ?_⟩
        cases Option.some.inj hm'
        exact loadedAs_deserialize hfit hm

end DeviceMessaging
