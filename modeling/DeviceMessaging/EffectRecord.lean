import DeviceMessaging.EffectPool

namespace Effect.System

variable {Cmd : Type} {Reply : Cmd → Type} {ε H W O D G : Type}
  {S : System Cmd Reply ε H W O D}

/-- The runs with a record that each step adds to, whose every step meets `ok`, a condition
on the configuration and the record it is taken from. -/
inductive Recorded (S : System Cmd Reply ε H W O D)
    (ok : Config Cmd Reply ε H W → G → Choice H O D → Prop)
    (note : Config Cmd Reply ε H W → Choice H O D → G → G) (init : Config Cmd Reply ε H W) (g₀ : G) :
    Config Cmd Reply ε H W → G → Prop
  | init : Recorded S ok note init g₀ init g₀
  | step {x y : Config Cmd Reply ε H W} {g : G} (a : Choice H O D)
      (hx : Recorded S ok note init g₀ x g) (ha : ok x g a) (hy : S.next a x = some y) :
      Recorded S ok note init g₀ y (note x a g)

variable {ok : Config Cmd Reply ε H W → G → Choice H O D → Prop}
  {note : Config Cmd Reply ε H W → Choice H O D → G → G}
  {init x y : Config Cmd Reply ε H W} {g₀ g : G}

/-- Keeping a record stands in the way of no run. -/
theorem Reachable.recorded {ok : Config Cmd Reply ε H W → Choice H O D → Prop}
    (hx : S.Reachable ok init x) (note : Config Cmd Reply ε H W → Choice H O D → G → G) (g₀ : G) :
    ∃ g, S.Recorded (fun x _ a => ok x a) note init g₀ x g := by
  induction hx with
  | init => exact ⟨g₀, .init⟩
  | @step x y a _ ha hy ih =>
    obtain ⟨g, hg⟩ := ih
    exact ⟨note x a g, .step a hg ha hy⟩

theorem Recorded.reachable (hx : S.Recorded ok note init g₀ x g) :
    S.Reachable (fun _ _ => True) init x := by
  induction hx with
  | init => exact .init
  | step a _ _ hy ih => exact .step a ih trivial hy

/-- An invariant of the record and the configuration that every step preserves. -/
theorem Recorded.invariant {I : Config Cmd Reply ε H W → G → Prop} (h0 : I init g₀)
    (hs : ∀ x y a g, I x g → ok x g a → S.next a x = some y → I y (note x a g))
    (hx : S.Recorded ok note init g₀ x g) : I x g := by
  induction hx with
  | init => exact h0
  | step a _ ha hy ih => exact hs _ _ a _ ih ha hy

/-- What an invariant of a run makes of its condition is met by its steps too. -/
theorem Recorded.strengthen {I : Config Cmd Reply ε H W → G → Prop}
    {ok' : Config Cmd Reply ε H W → G → Choice H O D → Prop} (h0 : I init g₀)
    (hs : ∀ x y a g, I x g → ok x g a → S.next a x = some y → I y (note x a g))
    (hok : ∀ x g a, I x g → ok x g a → ok' x g a) (hx : S.Recorded ok note init g₀ x g) :
    S.Recorded ok' note init g₀ x g := by
  have hall : S.Recorded ok' note init g₀ x g ∧ I x g := by
    refine hx.invariant (I := fun x g => S.Recorded ok' note init g₀ x g ∧ I x g) ⟨.init, h0⟩ ?_
    rintro x y a g ⟨hx, hI⟩ ha hy
    exact ⟨.step a hx (hok x g a hI ha) hy, hs x y a g hI ha hy⟩
  exact hall.1

/-- Follow a schedule and keep the record. -/
def followRecorded (S : System Cmd Reply ε H W O D)
    (check : Config Cmd Reply ε H W → G → Choice H O D → Bool)
    (note : Config Cmd Reply ε H W → Choice H O D → G → G) (as : List (Choice H O D))
    (x : Config Cmd Reply ε H W) (g : G) : Option (Config Cmd Reply ε H W × G) :=
  match as with
  | [] => some (x, g)
  | a :: as =>
    if check x g a then (S.next a x).bind fun y => followRecorded S check note as y (note x a g)
    else none

/-- A schedule that can be followed is a recorded run. -/
theorem Recorded.of_follow {check : Config Cmd Reply ε H W → G → Choice H O D → Bool}
    {as : List (Choice H O D)} {g' : G} (hc : ∀ x g a, check x g a = true → ok x g a)
    (hx : S.Recorded ok note init g₀ x g)
    (hy : S.followRecorded check note as x g = some (y, g')) :
    S.Recorded ok note init g₀ y g' := by
  induction as generalizing x g with
  | nil =>
    cases hy
    exact hx
  | cons a as ih =>
    unfold followRecorded at hy
    split at hy
    next ha =>
      obtain ⟨z, hz, hy⟩ := Option.bind_eq_some_iff.mp hy
      exact ih (.step a hx (hc x g a ha) hz) hy
    next => cases hy

/-- The rule for facts about slots: one choice fills a new slot, or takes the turn of
one and leaves the others be, or leaves or empties them all. -/
theorem slots_next {P Q : Nat → H × Prog Cmd Reply ε Unit → Prop} {a : Choice H O D}
    (hx : ∀ (j : Nat) t, x.threads[j]? = some t → P j t) (hy : S.next a x = some y)
    (hstart : ∀ h w, a = .start h → S.start h x.world = some w →
      Q x.threads.length (h, S.program h))
    (hothers : ∀ (j : Nat) t, x.threads[j]? = some t → (∀ o, a ≠ .turn j o) → a ≠ .crash →
      P j t → Q j t)
    (hturn : ∀ (i : Nat) o h c k r w, a = .turn i o → x.threads[i]? = some (h, .step c k) →
      S.respond o c x.world = some (r, w) → P i (h, .step c k) → Q i (h, k r)) :
    ∀ (j : Nat) t, y.threads[j]? = some t → Q j t := by
  rcases next_cases hy with ⟨h, w, rfl, hw, rfl⟩ | ⟨i, o, h, c, k, r, w, rfl, ht, hr, rfl⟩ |
    ⟨d, w, rfl, hw, rfl⟩ | ⟨w, rfl, hw, rfl⟩
  · intro j t ht
    rcases Nat.lt_or_ge j x.threads.length with hj | hj
    · rw [List.getElem?_append_left hj] at ht
      exact hothers j t ht nofun nofun (hx j t ht)
    · rw [List.getElem?_append_right hj] at ht
      have hlt := (List.getElem?_eq_some_iff.mp ht).1
      have he := List.eq_of_mem_singleton (List.mem_of_getElem? ht)
      have hj' : j = x.threads.length := by
        rw [List.length_singleton] at hlt
        omega
      rw [hj', he]
      exact hstart h w rfl hw
  · intro j t ht'
    by_cases hij : i = j
    · subst hij
      have hq := hturn i o h c k r w rfl ht hr (hx i _ ht)
      rw [List.getElem?_set_self (List.getElem?_eq_some_iff.mp ht).1] at ht'
      cases ht'
      exact hq
    · rw [List.getElem?_set_ne hij] at ht'
      exact hothers j t ht' (fun o' he => hij (Choice.turn.inj he).1) nofun (hx j t ht')
  · exact fun j t ht => hothers j t ht nofun nofun (hx j t ht)
  · intro j t ht
    cases ht

end Effect.System
