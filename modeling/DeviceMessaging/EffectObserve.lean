import DeviceMessaging.EffectLogic

namespace Effect

variable {Cmd : Type} {Reply : Cmd → Type} {ε α W G : Type}

/-- The world together with notes that are taken of every command and its reply. -/
def observedExec (exec : W → (c : Cmd) → Reply c → W → Prop)
    (note : W → (c : Cmd) → Reply c → G → G) (s : W × G) (c : Cmd) (r : Reply c) (s' : W × G) :
    Prop :=
  exec s.1 c r s'.1 ∧ s'.2 = note s.1 c r s.2

variable {exec : W → (c : Cmd) → Reply c → W → Prop} {note : W → (c : Cmd) → Reply c → G → G}

namespace Prog

/-- Taking notes stands in the way of no run. -/
theorem runs_observed {p : Prog Cmd Reply ε α} {w w' : W} {r : Except ε α}
    (h : p.Runs exec w r w') (g : G) :
    ∃ g', p.Runs (observedExec exec note) (w, g) r (w', g') := by
  induction p generalizing w g with
  | pure a =>
    obtain ⟨rfl, rfl⟩ := h
    exact ⟨g, rfl, rfl⟩
  | fail e =>
    obtain ⟨rfl, rfl⟩ := h
    exact ⟨g, rfl, rfl⟩
  | step c k ih =>
    obtain ⟨x, w₁, hx, hk⟩ := h
    obtain ⟨g', hr⟩ := ih x hk (note w c x g)
    exact ⟨g', x, (w₁, note w c x g), ⟨hx, rfl⟩, hr⟩

/-- And what is observed is a run. -/
theorem runs_of_observed {p : Prog Cmd Reply ε α} {s s' : W × G} {r : Except ε α}
    (h : p.Runs (observedExec exec note) s r s') : p.Runs exec s.1 r s'.1 := by
  induction p generalizing s with
  | pure a =>
    obtain ⟨rfl, rfl⟩ := h
    exact ⟨rfl, rfl⟩
  | fail e =>
    obtain ⟨rfl, rfl⟩ := h
    exact ⟨rfl, rfl⟩
  | step c k ih =>
    obtain ⟨x, s₁, hx, hk⟩ := h
    exact ⟨x, s₁.1, hx.1, ih x hk⟩

/-- Replies that a script answers, with the notes taken of them. -/
def observedPlay {O : Type} (respond : O → (c : Cmd) → W → Option (Reply c × W))
    (note : W → (c : Cmd) → Reply c → G → G) (o : O) (c : Cmd) (s : W × G) :
    Option (Reply c × (W × G)) :=
  (respond o c s.1).map fun x => (x.1, x.2, note s.1 c x.1 s.2)

theorem observedExec_of_play {O : Type} {respond : O → (c : Cmd) → W → Option (Reply c × W)}
    (h : ∀ o c w r w', respond o c w = some (r, w') → exec w c r w') (o : O) (c : Cmd) (s : W × G)
    (r : Reply c) (s' : W × G) (hr : observedPlay respond note o c s = some (r, s')) :
    observedExec exec note s c r s' := by
  obtain ⟨⟨x, w'⟩, hx, he⟩ := Option.map_eq_some_iff.mp hr
  cases he
  exact ⟨h o c s.1 x w' hx, rfl⟩

end Prog

end Effect
