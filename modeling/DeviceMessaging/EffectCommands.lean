import DeviceMessaging.EffectPool

namespace Effect

variable {Cmd : Type} {Reply : Cmd → Type} {ε α β : Type} {A B : Cmd → Prop}

/-- The commands in `A`, whatever the replies are. -/
def Monitor.only (A : Cmd → Prop) : Monitor Cmd Reply Unit where
  allows _ c := A c
  next _ _ _ _ := True

namespace Prog

/-- The program issues only commands in `A`. -/
abbrev Issues (A : Cmd → Prop) (p : Prog Cmd Reply ε α) : Prop :=
  p.Keeps (Monitor.only A) fun _ => True

theorem issues_command {c : Cmd} (hc : A c) :
    (command c : Prog Cmd Reply ε (Reply c)).Issues A :=
  fun _ _ => ⟨hc, fun _ _ _ => trivial⟩

theorem issues_any (p : Prog Cmd Reply ε α) : p.Issues fun _ => True := by
  induction p with
  | pure a => exact fun _ _ => trivial
  | fail e => exact fun _ _ => trivial
  | step c k ih => exact fun _ _ => ⟨trivial, fun r u _ => ih r u trivial⟩

theorem Issues.mono {p : Prog Cmd Reply ε α} (hp : p.Issues A) (hAB : ∀ c, A c → B c) :
    p.Issues B := by
  induction p with
  | pure a => exact fun _ _ => trivial
  | fail e => exact fun _ _ => trivial
  | step c k ih =>
    intro u hu
    exact ⟨hAB c (hp u hu).1, fun r u' _ => ih r (fun v _ => (hp u hu).2 r v trivial) u' trivial⟩

theorem Issues.pending {p : Prog Cmd Reply ε α} {c : Cmd} (hp : p.Issues A)
    (hc : p.pending = some c) : A c := by
  cases p with
  | pure a => cases hc
  | fail e => cases hc
  | step b k =>
    cases hc
    exact (hp () trivial).1

theorem Issues.reply {c : Cmd} {k : Reply c → Prog Cmd Reply ε α}
    (hp : (Prog.step c k).Issues A) (r : Reply c) : (k r).Issues A :=
  fun u _ => (hp () trivial).2 r u trivial

end Prog

namespace System

variable {H W O D : Type} {S : System Cmd Reply ε H W O D} {May : H → Cmd → Prop}
  {ok : Config Cmd Reply ε H W → Choice H O D → Prop} {init x : Config Cmd Reply ε H W}

/-- What the programs of the handlers may issue is what their threads issue in every run. -/
theorem Reachable.issues (hp : ∀ h, (S.program h).Issues (May h))
    (h0 : ∀ t ∈ init.threads, t.2.Issues (May t.1)) (hx : S.Reachable ok init x) :
    ∀ t ∈ x.threads, t.2.Issues (May t.1) := by
  refine hx.invariant (I := fun x => ∀ t ∈ x.threads, t.2.Issues (May t.1)) h0 ?_
  intro x y a hI _ hy
  rcases next_cases hy with ⟨h, w, rfl, hw, rfl⟩ | ⟨i, o, h, c, k, r, w, rfl, ht, hr, rfl⟩ |
    ⟨d, w, rfl, hw, rfl⟩ | ⟨w, rfl, hw, rfl⟩
  · intro t ht
    rcases List.mem_append.mp ht with ht | ht
    · exact hI t ht
    · rw [List.mem_singleton.mp ht]
      exact hp h
  · intro t ht'
    rcases List.mem_or_eq_of_mem_set ht' with ht' | rfl
    · exact hI t ht'
    · exact (hI _ (List.mem_of_getElem? ht)).reply r
  · exact hI
  · intro t ht
    cases ht

theorem Reachable.may (hp : ∀ h, (S.program h).Issues (May h)) (h0 : init.threads = [])
    (hx : S.Reachable ok init x) {i : Nat} {h : H} {c : Cmd} (hw : x.waiting i = some (h, c)) :
    May h c := by
  obtain ⟨p, hmem, hc⟩ := Config.waiting_mem hw
  refine (hx.issues hp ?_ _ hmem).pending hc
  rw [h0]
  exact fun t ht => nomatch ht

end System

end Effect
