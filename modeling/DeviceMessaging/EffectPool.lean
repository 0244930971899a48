import Mathlib.Data.List.Basic
import DeviceMessaging.EffectLogic

namespace Effect

/-- Concurrent handlers over one world. A handler runs its program; `respond`
executes one command as a single atomic step, under an oracle that fixes what
the outside answers. -/
structure System (Cmd : Type) (Reply : Cmd → Type) (ε H W O D : Type) where
  program : H → Prog Cmd Reply ε Unit
  respond : O → (c : Cmd) → W → Option (Reply c × W)
  start : H → W → Option W
  disturb : D → W → Option W
  crash : W → Option W

/-- One choice of the scheduler. -/
inductive Choice (H O D : Type)
  | start (h : H)
  | turn (i : Nat) (o : O)
  | disturb (d : D)
  | crash

structure Config (Cmd : Type) (Reply : Cmd → Type) (ε H W : Type) where
  threads : List (H × Prog Cmd Reply ε Unit)
  world : W

variable {Cmd : Type} {Reply : Cmd → Type} {ε H W O D : Type}

namespace Config

/-- The handler in a slot and the command it waits on. -/
def waiting (x : Config Cmd Reply ε H W) (i : Nat) : Option (H × Cmd) := do
  let (h, p) ← x.threads[i]?
  let c ← p.pending
  return (h, c)

theorem waiting_of_get {x : Config Cmd Reply ε H W} {i : Nat} {h : H} {p : Prog Cmd Reply ε Unit}
    (ht : x.threads[i]? = some (h, p)) : x.waiting i = p.pending.map fun c => (h, c) := by
  unfold waiting
  rw [ht]
  change (p.pending.bind fun c => some (h, c)) = _
  cases p.pending <;> rfl

/-- A slot that waits on a command runs a handler whose program issues it next. -/
theorem get_of_waiting {x : Config Cmd Reply ε H W} {i : Nat} {h : H} {c : Cmd}
    (hw : x.waiting i = some (h, c)) : ∃ k, x.threads[i]? = some (h, .step c k) := by
  obtain ⟨⟨h', p⟩, ht, hw⟩ := Option.bind_eq_some_iff.mp hw
  obtain ⟨c', hc, hw⟩ := Option.bind_eq_some_iff.mp hw
  cases Option.some.inj hw
  cases p with
  | pure a => cases hc
  | fail e => cases hc
  | step b k =>
    cases hc
    exact ⟨k, ht⟩

theorem waiting_mem {x : Config Cmd Reply ε H W} {i : Nat} {h : H} {c : Cmd}
    (hw : x.waiting i = some (h, c)) : ∃ p, (h, p) ∈ x.threads ∧ p.pending = some c := by
  obtain ⟨k, ht⟩ := get_of_waiting hw
  exact ⟨_, List.mem_of_getElem? ht, rfl⟩

end Config

namespace System

variable (S : System Cmd Reply ε H W O D)

/-- One turn of a program: its pending command, executed. -/
def advance (o : O) (p : Prog Cmd Reply ε Unit) (w : W) :
    Option (Prog Cmd Reply ε Unit × W) :=
  match p with
  | .step c k => (S.respond o c w).map fun (r, w') => (k r, w')
  | _ => none

def next (a : Choice H O D) (x : Config Cmd Reply ε H W) : Option (Config Cmd Reply ε H W) :=
  match a with
  | .start h => (S.start h x.world).map fun w => ⟨x.threads ++ [(h, S.program h)], w⟩
  | .turn i o => do
    let (h, p) ← x.threads[i]?
    let (p', w) ← S.advance o p x.world
    return ⟨x.threads.set i (h, p'), w⟩
  | .disturb d => (S.disturb d x.world).map fun w => ⟨x.threads, w⟩
  | .crash => (S.crash x.world).map fun w => ⟨[], w⟩

/-- The configurations of the runs whose every step meets `ok`, a condition on
the configuration the step is taken from. -/
inductive Reachable (ok : Config Cmd Reply ε H W → Choice H O D → Prop)
    (init : Config Cmd Reply ε H W) : Config Cmd Reply ε H W → Prop
  | init : Reachable ok init init
  | step {x y : Config Cmd Reply ε H W} (a : Choice H O D) (hx : Reachable ok init x)
      (ha : ok x a) (hy : S.next a x = some y) : Reachable ok init y

/-- Follow a schedule; `none` when one of its choices fails the check or cannot
be taken. -/
def follow (check : Config Cmd Reply ε H W → Choice H O D → Bool)
    (as : List (Choice H O D)) (x : Config Cmd Reply ε H W) :
    Option (Config Cmd Reply ε H W) :=
  match as with
  | [] => some x
  | a :: as => if check x a then (S.next a x).bind (follow check as) else none

variable {S} {ok : Config Cmd Reply ε H W → Choice H O D → Prop}
  {init x y : Config Cmd Reply ε H W}

theorem advance_cases {o : O} {p p' : Prog Cmd Reply ε Unit} {w w' : W}
    (h : S.advance o p w = some (p', w')) :
    ∃ c k r, p = .step c k ∧ S.respond o c w = some (r, w') ∧ p' = k r := by
  cases p with
  | pure a => simp [advance] at h
  | fail e => simp [advance] at h
  | step c k =>
    obtain ⟨⟨r, w₁⟩, hr, h⟩ := Option.map_eq_some_iff.mp h
    cases h
    exact ⟨c, k, r, rfl, hr, rfl⟩

/-- What one choice can do to a configuration. -/
theorem next_cases {a : Choice H O D} (hy : S.next a x = some y) :
    (∃ h w, a = .start h ∧ S.start h x.world = some w ∧
      y = ⟨x.threads ++ [(h, S.program h)], w⟩) ∨
    (∃ i o h c k r w, a = .turn i o ∧ x.threads[i]? = some (h, .step c k) ∧
      S.respond o c x.world = some (r, w) ∧ y = ⟨x.threads.set i (h, k r), w⟩) ∨
    (∃ d w, a = .disturb d ∧ S.disturb d x.world = some w ∧ y = ⟨x.threads, w⟩) ∨
    (∃ w, a = .crash ∧ S.crash x.world = some w ∧ y = ⟨[], w⟩) := by
  cases a with
  | start h =>
    obtain ⟨w, hw, rfl⟩ := Option.map_eq_some_iff.mp hy
    exact .inl ⟨h, w, rfl, hw, rfl⟩
  | turn i o =>
    obtain ⟨⟨h, p⟩, ht, hy⟩ := Option.bind_eq_some_iff.mp hy
    obtain ⟨⟨p', w⟩, hp, hy⟩ := Option.bind_eq_some_iff.mp hy
    obtain ⟨c, k, r, rfl, hr, rfl⟩ := advance_cases hp
    exact .inr (.inl ⟨i, o, h, c, k, r, w, rfl, ht, hr, (Option.some.inj hy).symm⟩)
  | disturb d =>
    obtain ⟨w, hw, rfl⟩ := Option.map_eq_some_iff.mp hy
    exact .inr (.inr (.inl ⟨d, w, rfl, hw, rfl⟩))
  | crash =>
    obtain ⟨w, hw, rfl⟩ := Option.map_eq_some_iff.mp hy
    exact .inr (.inr (.inr ⟨w, rfl, hw, rfl⟩))

/-- A thread waits on its command until its turn. -/
theorem waiting_next {a : Choice H O D} {j : Nat} {h : H} {c : Cmd} (hy : S.next a x = some y)
    (hj : x.waiting j = some (h, c)) (hturn : ∀ o, a ≠ .turn j o) (hcrash : a ≠ .crash) :
    y.waiting j = some (h, c) := by
  rcases next_cases hy with ⟨h', w, rfl, -, rfl⟩ | ⟨i, o, h', c', k, r, w, rfl, -, -, rfl⟩ |
    ⟨d, w, rfl, -, rfl⟩ | ⟨w, rfl, -, rfl⟩
  · have hlt : j < x.threads.length := by
      obtain ⟨k, ht⟩ := Config.get_of_waiting hj
      exact (List.getElem?_eq_some_iff.mp ht).1
    unfold Config.waiting at hj ⊢
    rwa [List.getElem?_append_left hlt]
  · have hne : i ≠ j := fun e => hturn o (e ▸ rfl)
    unfold Config.waiting at hj ⊢
    rwa [List.getElem?_set_ne hne]
  · exact hj
  · exact absurd rfl hcrash

/-- What a thread waits on after its turn. -/
theorem waiting_turn {i : Nat} {o : O} (hy : S.next (.turn i o) x = some y) :
    ∃ h c k r w, x.threads[i]? = some (h, .step c k) ∧ S.respond o c x.world = some (r, w) ∧
      y.world = w ∧ y.waiting i = (k r).pending.map fun c => (h, c) := by
  rcases next_cases hy with ⟨_, _, e, -⟩ | ⟨j, o, h, c, k, r, w, e, ht, hr, rfl⟩ |
    ⟨_, _, e, -⟩ | ⟨_, e, -⟩
  · cases e
  · cases e
    refine ⟨h, c, k, r, w, ht, hr, rfl, ?_⟩
    have hlt := (List.getElem?_eq_some_iff.mp ht).1
    exact Config.waiting_of_get (List.getElem?_set_self hlt)
  · cases e
  · cases e

/-- What a followed schedule leads to is reachable. -/
theorem Reachable.of_follow {check : Config Cmd Reply ε H W → Choice H O D → Bool}
    {as : List (Choice H O D)} (hc : ∀ x a, check x a = true → ok x a)
    (hx : S.Reachable ok init x) (hy : S.follow check as x = some y) :
    S.Reachable ok init y := by
  induction as generalizing x with
  | nil => exact Option.some.inj hy ▸ hx
  | cons a as ih =>
    unfold follow at hy
    split at hy
    next ha =>
      obtain ⟨z, hz, hy⟩ := Option.bind_eq_some_iff.mp hy
      exact ih (.step a hx (hc x a ha) hz) hy
    next => cases hy

/-- A schedule that can be followed to a configuration of some kind shows that
one of that kind is reachable. -/
theorem exists_reachable (check : Config Cmd Reply ε H W → Choice H O D → Bool)
    (as : List (Choice H O D)) (p : Config Cmd Reply ε H W → Bool)
    (hc : ∀ x a, check x a = true → ok x a) (h : (S.follow check as init).any p = true) :
    ∃ x, S.Reachable ok init x ∧ p x = true := by
  cases hx : S.follow check as init with
  | none => simp [hx] at h
  | some x => exact ⟨x, .of_follow hc .init hx, by simpa [hx] using h⟩

/-- An invariant that every choice preserves holds of every reachable
configuration. -/
theorem Reachable.invariant {I : Config Cmd Reply ε H W → Prop} (h0 : I init)
    (hs : ∀ x y a, I x → ok x a → S.next a x = some y → I y)
    (hx : S.Reachable ok init x) : I x := by
  induction hx with
  | init => exact h0
  | step a _ ha hy ih => exact hs _ _ a ih ha hy

end System

/-- What each handler's program is watched by, through states of the watcher:
how a program may end, and what a watcher's state says about the world. -/
structure Watch (Cmd : Type) (Reply : Cmd → Type) (H W G : Type) where
  monitor : H → Monitor Cmd Reply G
  ends : H → G → Prop
  holds : H → G → W → Prop

/-- A thread some state of the watcher vouches for. -/
def Watch.Vouches {G : Type} (V : Watch Cmd Reply H W G) (t : H × Prog Cmd Reply ε Unit)
    (w : W) : Prop :=
  ∃ g, t.2.wp (V.monitor t.1) (fun _ => V.ends t.1) (fun _ => V.ends t.1) g ∧ V.holds t.1 g w

namespace System

variable {G : Type} {S : System Cmd Reply ε H W O D} {V : Watch Cmd Reply H W G}
  {x y : Config Cmd Reply ε H W} {a : Choice H O D}

/-- The rule for facts about threads: every thread stays vouched for when the
programs do at their start, what watchers say of the world is not undone by
others, and a watcher can follow each command it allows. -/
theorem vouched_next (hx : ∀ t ∈ x.threads, V.Vouches t x.world) (hy : S.next a x = some y)
    (hstart : ∀ h w, a = .start h → S.start h x.world = some w →
      V.Vouches (h, S.program h) w)
    (hstable : ∀ h g, V.holds h g x.world → V.holds h g y.world)
    (hturn : ∀ i o h c r w g, a = .turn i o → x.waiting i = some (h, c) →
      S.respond o c x.world = some (r, w) → (V.monitor h).allows g c → V.holds h g x.world →
      ∃ g', (V.monitor h).next g c r g' ∧ V.holds h g' w) :
    ∀ t ∈ y.threads, V.Vouches t y.world := by
  have hkeep : ∀ t ∈ x.threads, V.Vouches t y.world := by
    intro t ht
    obtain ⟨g, hp, hg⟩ := hx t ht
    exact ⟨g, hp, hstable _ g hg⟩
  rcases next_cases hy with ⟨h, w, rfl, hw, rfl⟩ | ⟨i, o, h, c, k, r, w, rfl, ht, hr, rfl⟩ |
    ⟨d, w, rfl, hw, rfl⟩ | ⟨w, rfl, hw, rfl⟩
  · intro t ht
    rcases List.mem_append.mp ht with ht | ht
    · exact hkeep t ht
    · rw [List.mem_singleton] at ht
      exact ht ▸ hstart h w rfl hw
  · intro t ht'
    rcases List.mem_or_eq_of_mem_set ht' with ht' | rfl
    · exact hkeep t ht'
    · obtain ⟨g, hp, hg⟩ := hx _ (List.mem_of_getElem? ht)
      have hw : x.waiting i = some (h, c) := by simp [Config.waiting, ht, Prog.pending]
      obtain ⟨g', hn, hg'⟩ := hturn i o h c r w g rfl hw hr hp.1 hg
      exact ⟨g', hp.2 r g' hn, hg'⟩
  · exact hkeep
  · intro t ht
    cases ht

/-- The rule for threads that own what they know: what a watcher says of the world
has to be kept by the turns of the other threads only. -/
theorem vouched_at_next (hx : ∀ (j : Nat) t, x.threads[j]? = some t → V.Vouches t x.world)
    (hy : S.next a x = some y)
    (hstart : ∀ h w, a = .start h → S.start h x.world = some w → V.Vouches (h, S.program h) w)
    (hothers : ∀ (j : Nat) h p g, x.threads[j]? = some (h, p) → (∀ o, a ≠ .turn j o) →
      a ≠ .crash → V.holds h g x.world → V.holds h g y.world)
    (hturn : ∀ (i : Nat) o h c k r w g, a = .turn i o → x.threads[i]? = some (h, .step c k) →
      S.respond o c x.world = some (r, w) → (V.monitor h).allows g c → V.holds h g x.world →
      ∃ g', (V.monitor h).next g c r g' ∧ V.holds h g' w) :
    ∀ (j : Nat) t, y.threads[j]? = some t → V.Vouches t y.world := by
  have hkeep : ∀ (j : Nat) t, x.threads[j]? = some t → (∀ o, a ≠ .turn j o) → a ≠ .crash →
      V.Vouches t y.world := by
    intro j t ht hne hcrash
    obtain ⟨g, hp, hg⟩ := hx j t ht
    exact ⟨g, hp, hothers j _ _ g ht hne hcrash hg⟩
  rcases next_cases hy with ⟨h, w, rfl, hw, rfl⟩ | ⟨i, o, h, c, k, r, w, rfl, ht, hr, rfl⟩ |
    ⟨d, w, rfl, hw, rfl⟩ | ⟨w, rfl, hw, rfl⟩
  · intro j t ht
    rcases Nat.lt_or_ge j x.threads.length with hj | hj
    · rw [List.getElem?_append_left hj] at ht
      exact hkeep j t ht nofun nofun
    · rw [List.getElem?_append_right hj] at ht
      have he := List.eq_of_mem_singleton (List.mem_of_getElem? ht)
      exact he ▸ hstart h w rfl hw
  · intro j t ht'
    by_cases hij : i = j
    · subst hij
      obtain ⟨g, hp, hg⟩ := hx i _ ht
      obtain ⟨g', hn, hg'⟩ := hturn i o h c k r w g rfl ht hr hp.1 hg
      rw [List.getElem?_set_self (List.getElem?_eq_some_iff.mp ht).1] at ht'
      cases ht'
      exact ⟨g', hp.2 r g' hn, hg'⟩
    · rw [List.getElem?_set_ne hij] at ht'
      exact hkeep j t ht' (fun o' he => hij (Choice.turn.inj he).1) nofun
  · exact fun j t ht => hkeep j t ht nofun nofun
  · intro j t ht
    cases ht

end System

end Effect
