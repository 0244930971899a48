import DeviceMessaging.EffectProgram

namespace Effect

/-- What a program is watched by: the commands it may issue from a state, and
the states a reply can lead to. -/
structure Monitor (Cmd : Type) (Reply : Cmd → Type) (S : Type) where
  allows : S → Cmd → Prop
  next : S → (c : Cmd) → Reply c → S → Prop

variable {Cmd : Type} {Reply : Cmd → Type} {ε α β S : Type}

/-- The monitor that allows every command and follows the world. -/
def Monitor.ofExec (exec : S → (c : Cmd) → Reply c → S → Prop) : Monitor Cmd Reply S where
  allows _ _ := True
  next := exec

/-- Every command the program issues from `s` is allowed, and it ends in `Q`
when it returns and in `E` when it throws, whatever the replies are. -/
def Prog.wp (M : Monitor Cmd Reply S) (p : Prog Cmd Reply ε α)
    (Q : α → S → Prop) (E : ε → S → Prop) (s : S) : Prop :=
  match p with
  | .pure a => Q a s
  | .fail e => E e s
  | .step c k => M.allows s c ∧ ∀ r s', M.next s c r s' → (k r).wp M Q E s'

namespace Prog

variable {M : Monitor Cmd Reply S} {Q Q' : α → S → Prop} {E E' : ε → S → Prop} {s : S}

@[simp] theorem wp_pure (a : α) : wp M (Pure.pure a : Prog Cmd Reply ε α) Q E s ↔ Q a s :=
  Iff.rfl

@[simp] theorem wp_throw (e : ε) : wp M (throw e : Prog Cmd Reply ε α) Q E s ↔ E e s :=
  Iff.rfl

@[simp] theorem wp_command (c : Cmd) {Q : Reply c → S → Prop} :
    wp M (command c : Prog Cmd Reply ε (Reply c)) Q E s ↔
      M.allows s c ∧ ∀ r s', M.next s c r s' → Q r s' :=
  Iff.rfl

@[simp] theorem wp_bind (p : Prog Cmd Reply ε α) (f : α → Prog Cmd Reply ε β)
    {Q : β → S → Prop} :
    wp M (p >>= f) Q E s ↔ wp M p (fun a s => wp M (f a) Q E s) E s := by
  induction p generalizing s with
  | pure a => rfl
  | fail e => rfl
  | step c k ih =>
    exact and_congr_right fun _ => forall₂_congr fun r s' => imp_congr_right fun _ => ih r

@[simp] theorem wp_tryCatch (p : Prog Cmd Reply ε α) (h : ε → Prog Cmd Reply ε α) :
    wp M (tryCatch p h) Q E s ↔ wp M p Q (fun e s => wp M (h e) Q E s) s := by
  induction p generalizing s with
  | pure a => rfl
  | fail e => rfl
  | step c k ih =>
    exact and_congr_right fun _ => forall₂_congr fun r s' => imp_congr_right fun _ => ih r

theorem wp_mono {p : Prog Cmd Reply ε α} (h : wp M p Q E s)
    (hQ : ∀ a s, Q a s → Q' a s) (hE : ∀ e s, E e s → E' e s) : wp M p Q' E' s := by
  induction p generalizing s with
  | pure a => exact hQ a s h
  | fail e => exact hE e s h
  | step c k ih => exact ⟨h.1, fun r s' hr => ih r (h.2 r s' hr)⟩

/-- What holds of a program whatever its world answers holds when the world answers less. -/
theorem wp_narrow {exec exec' : S → (c : Cmd) → Reply c → S → Prop} {p : Prog Cmd Reply ε α}
    (he : ∀ s c r s', exec s c r s' → exec' s c r s') (h : wp (Monitor.ofExec exec') p Q E s) :
    wp (Monitor.ofExec exec) p Q E s := by
  induction p generalizing s with
  | pure a => exact h
  | fail e => exact h
  | step c k ih => exact ⟨trivial, fun r s' hr => ih r (h.2 r s' (he s c r s' hr))⟩

/-- From the states in `J` the program is allowed, and it ends in `J`. -/
def Keeps (M : Monitor Cmd Reply S) (J : S → Prop) (p : Prog Cmd Reply ε α) : Prop :=
  ∀ s, J s → p.wp M (fun _ => J) (fun _ => J) s

variable {J : S → Prop} {p : Prog Cmd Reply ε α}

theorem keeps_pure (a : α) : (Pure.pure a : Prog Cmd Reply ε α).Keeps M J :=
  fun _ hs => hs

theorem keeps_throw (e : ε) : (throw e : Prog Cmd Reply ε α).Keeps M J :=
  fun _ hs => hs

theorem keeps_bind {f : α → Prog Cmd Reply ε β} (hp : p.Keeps M J) (hf : ∀ a, (f a).Keeps M J) :
    (p >>= f).Keeps M J := by
  intro s hs
  rw [wp_bind]
  exact wp_mono (hp s hs) (fun a s' hs' => hf a s' hs') fun _ _ hs' => hs'

theorem keeps_tryCatch {h : ε → Prog Cmd Reply ε α} (hp : p.Keeps M J)
    (hh : ∀ e, (h e).Keeps M J) : (tryCatch p h).Keeps M J := by
  intro s hs
  rw [wp_tryCatch]
  exact wp_mono (hp s hs) (fun _ _ hs' => hs') fun e s' hs' => hh e s' hs'

/-- The postconditions on a result that is a return or a throw. -/
def Ends (Q : α → S → Prop) (E : ε → S → Prop) (r : Except ε α) (s : S) : Prop :=
  match r with
  | .ok a => Q a s
  | .error e => E e s

/-- What is proved of a program over `exec` holds at the end of its every run. -/
theorem wp_runs {exec : S → (c : Cmd) → Reply c → S → Prop} {p : Prog Cmd Reply ε α}
    {r : Except ε α} {s' : S} (h : wp (Monitor.ofExec exec) p Q E s)
    (hr : p.Runs exec s r s') : Ends Q E r s' := by
  induction p generalizing s with
  | pure a => obtain ⟨rfl, rfl⟩ := hr; exact h
  | fail e => obtain ⟨rfl, rfl⟩ := hr; exact h
  | step c k ih =>
    obtain ⟨x, s₁, hx, hk⟩ := hr
    exact ih x (h.2 x s₁ hx) hk

end Prog

end Effect
