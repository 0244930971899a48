import Mathlib.Logic.Basic

namespace Effect

/-- A program over atomic commands: it returns, throws, or issues one command
and goes on with the reply it gets. -/
inductive Prog (Cmd : Type) (Reply : Cmd → Type) (ε α : Type) : Type
  | pure (a : α)
  | fail (e : ε)
  | step (c : Cmd) (k : Reply c → Prog Cmd Reply ε α)

namespace Prog

variable {Cmd : Type} {Reply : Cmd → Type} {ε α β γ W : Type}

def bind (p : Prog Cmd Reply ε α) (f : α → Prog Cmd Reply ε β) : Prog Cmd Reply ε β :=
  match p with
  | .pure a => f a
  | .fail e => .fail e
  | .step c k => .step c fun r => (k r).bind f

/-- Run `h` on the error a program throws. -/
def handle (p : Prog Cmd Reply ε α) (h : ε → Prog Cmd Reply ε α) : Prog Cmd Reply ε α :=
  match p with
  | .pure a => .pure a
  | .fail e => h e
  | .step c k => .step c fun r => (k r).handle h

instance : Monad (Prog Cmd Reply ε) where
  pure := .pure
  bind := bind

instance : MonadExcept ε (Prog Cmd Reply ε) where
  throw := .fail
  tryCatch := handle

/-- The program that issues one command and returns its reply. -/
def command (c : Cmd) : Prog Cmd Reply ε (Reply c) :=
  .step c .pure

theorem bind_assoc (p : Prog Cmd Reply ε α) (f : α → Prog Cmd Reply ε β)
    (g : β → Prog Cmd Reply ε γ) : (p >>= f >>= g) = (p >>= fun a => f a >>= g) := by
  induction p with
  | pure a => rfl
  | fail e => rfl
  | step c k ih => exact congrArg (Prog.step c) (funext ih)

/-- The command a program waits on, when it is not over. -/
def pending (p : Prog Cmd Reply ε α) : Option Cmd :=
  match p with
  | .step c _ => some c
  | _ => none

/-- The whole run of a program on a world whose commands answer by `exec`. -/
def Runs (exec : W → (c : Cmd) → Reply c → W → Prop) (p : Prog Cmd Reply ε α)
    (w : W) (r : Except ε α) (w' : W) : Prop :=
  match p with
  | .pure a => r = .ok a ∧ w' = w
  | .fail e => r = .error e ∧ w' = w
  | .step c k => ∃ x w₁, exec w c x w₁ ∧ (k x).Runs exec w₁ r w'

theorem runs_bind {exec : W → (c : Cmd) → Reply c → W → Prop} {p : Prog Cmd Reply ε α}
    {f : α → Prog Cmd Reply ε β} {w w₁ w₂ : W} {a : α} {r : Except ε β}
    (hp : p.Runs exec w (.ok a) w₁) (hf : (f a).Runs exec w₁ r w₂) :
    (p >>= f).Runs exec w r w₂ := by
  induction p generalizing w with
  | pure b =>
    obtain ⟨he, rfl⟩ := hp
    cases he
    exact hf
  | fail e => cases hp.1
  | step c k ih =>
    obtain ⟨x, w', hx, hk⟩ := hp
    exact ⟨x, w', hx, ih x hk⟩

/-- A throw skips what follows. -/
theorem runs_bind_error {exec : W → (c : Cmd) → Reply c → W → Prop} {p : Prog Cmd Reply ε α}
    {f : α → Prog Cmd Reply ε β} {w w₁ : W} {e : ε} (hp : p.Runs exec w (.error e) w₁) :
    (p >>= f).Runs exec w (.error e) w₁ := by
  induction p generalizing w with
  | pure b => cases hp.1
  | fail e' =>
    obtain ⟨he, rfl⟩ := hp
    cases he
    exact ⟨rfl, rfl⟩
  | step c k ih =>
    obtain ⟨x, w', hx, hk⟩ := hp
    exact ⟨x, w', hx, ih x hk⟩

/-- A run goes through the first part, which throws or returns to the rest. -/
theorem runs_of_bind {exec : W → (c : Cmd) → Reply c → W → Prop} {p : Prog Cmd Reply ε α}
    {f : α → Prog Cmd Reply ε β} {w w' : W} {r : Except ε β} (h : (p >>= f).Runs exec w r w') :
    (∃ a w₁, p.Runs exec w (.ok a) w₁ ∧ (f a).Runs exec w₁ r w') ∨
      ∃ e, r = .error e ∧ p.Runs exec w (.error e) w' := by
  induction p generalizing w with
  | pure a => exact .inl ⟨a, w, ⟨rfl, rfl⟩, h⟩
  | fail e =>
    obtain ⟨rfl, rfl⟩ := h
    exact .inr ⟨e, rfl, rfl, rfl⟩
  | step c k ih =>
    obtain ⟨x, w₁, hx, hk⟩ := h
    rcases ih x hk with ⟨a, w₂, hp, hf⟩ | ⟨e, rfl, hp⟩
    · exact .inl ⟨a, w₂, ⟨x, w₁, hx, hp⟩, hf⟩
    · exact .inr ⟨e, rfl, x, w₁, hx, hp⟩

/-- Programs that go on alike from whatever their first part returns have the same runs. -/
theorem runs_bind_congr {exec : W → (c : Cmd) → Reply c → W → Prop} {p : Prog Cmd Reply ε α}
    {f g : α → Prog Cmd Reply ε β} {w w' : W} {r : Except ε β}
    (h : ∀ a w₁, p.Runs exec w (.ok a) w₁ → f a = g a) :
    (p >>= f).Runs exec w r w' ↔ (p >>= g).Runs exec w r w' := by
  constructor
  · intro hr
    rcases runs_of_bind hr with ⟨a, w₁, hp, hf⟩ | ⟨e, rfl, hp⟩
    · exact runs_bind hp (h a w₁ hp ▸ hf)
    · exact runs_bind_error hp
  · intro hr
    rcases runs_of_bind hr with ⟨a, w₁, hp, hg⟩ | ⟨e, rfl, hp⟩
    · exact runs_bind hp (h a w₁ hp ▸ hg)
    · exact runs_bind_error hp

theorem runs_command {exec : W → (c : Cmd) → Reply c → W → Prop} {c : Cmd} {x : Reply c}
    {w w' : W} (hx : exec w c x w') :
    (command c : Prog Cmd Reply ε (Reply c)).Runs exec w (.ok x) w' :=
  ⟨x, w', hx, rfl, rfl⟩

/-- A program on a world whose commands are answered from a script. -/
def play {O : Type} (exec : O → (c : Cmd) → W → Option (Reply c × W)) (p : Prog Cmd Reply ε α)
    (os : List O) (w : W) : Option (Except ε α × W) :=
  match p, os with
  | .pure a, _ => some (.ok a, w)
  | .fail e, _ => some (.error e, w)
  | .step _ _, [] => none
  | .step c k, o :: os =>
    match exec o c w with
    | none => none
    | some (r, w') => (k r).play exec os w'

/-- A script that plays to the end is a run. -/
theorem runs_of_play {O : Type} {exec : O → (c : Cmd) → W → Option (Reply c × W)}
    {step : W → (c : Cmd) → Reply c → W → Prop} {p : Prog Cmd Reply ε α} {os : List O} {w w' : W}
    {r : Except ε α} (he : ∀ o c w x w', exec o c w = some (x, w') → step w c x w')
    (h : p.play exec os w = some (r, w')) : p.Runs step w r w' := by
  induction p generalizing os w with
  | pure a =>
    cases h
    exact ⟨rfl, rfl⟩
  | fail e =>
    cases h
    exact ⟨rfl, rfl⟩
  | step c k ih =>
    cases os with
    | nil => cases h
    | cons o os =>
      unfold play at h
      split at h
      next => cases h
      next x w₁ hx => exact ⟨x, w₁, he o c w x w₁ hx, ih x h⟩

end Prog

end Effect
