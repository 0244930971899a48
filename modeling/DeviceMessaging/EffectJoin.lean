import DeviceMessaging.EffectPool

namespace Effect

namespace System

variable {Cmd : Type} {Reply : Cmd → Type} {ε H W O D : Type} {S : System Cmd Reply ε H W O D}

theorem follow_cons (a : Choice H O D) (as : List (Choice H O D)) (x : Config Cmd Reply ε H W) :
    S.follow (fun _ _ => true) (a :: as) x =
      (S.next a x).bind (S.follow (fun _ _ => true) as) :=
  if_pos rfl

variable (S) in
/-- A program that gets its turns in a row. -/
def through (os : List O) (p : Prog Cmd Reply ε Unit) (w : W) :
    Option (Prog Cmd Reply ε Unit × W) :=
  match os with
  | [] => some (p, w)
  | o :: os => (S.advance o p w).bind fun s => through os s.1 s.2

theorem through_step (o : O) (os : List O) (c : Cmd) (k : Reply c → Prog Cmd Reply ε Unit)
    (w : W) : S.through (o :: os) (.step c k) w =
      (S.respond o c w).bind fun s => S.through os (k s.1) s.2 := by
  simp only [through, advance]
  cases S.respond o c w <;> rfl

theorem through_command (o : O) (os : List O) (c : Cmd)
    (f : Reply c → Prog Cmd Reply ε Unit) (w : W) :
    S.through (o :: os) (Prog.command c >>= f) w =
      (S.respond o c w).bind fun s => S.through os (f s.1) s.2 :=
  through_step o os c _ w

/-- The thread that started last, when all turns are its own. -/
theorem follow_turns (os : List O) (ts : List (H × Prog Cmd Reply ε Unit)) (h : H)
    (p : Prog Cmd Reply ε Unit) (w : W) :
    S.follow (fun _ _ => true) (os.map (.turn ts.length)) ⟨ts ++ [(h, p)], w⟩ =
      (S.through os p w).map fun s => ⟨ts ++ [(h, s.1)], s.2⟩ := by
  induction os generalizing p w with
  | nil => rfl
  | cons o os ih =>
    rw [List.map_cons, follow_cons, through]
    simp only [next, List.getElem?_concat_length, Option.bind_eq_bind, Option.bind_some]
    cases S.advance o p w with
    | none => rfl
    | some s =>
      rw [Option.bind_some, Option.bind_some, ← ih]
      simp [Option.pure_def]

end System

/-- Two systems of one process. A choice of the first may make the second take choices of
its own, in one step; else the second runs by itself, on the choices that are left to it. -/
structure Join (Cmd : Type) (Reply : Cmd → Type) (ε H W O D : Type)
    (Cmd' : Type) (Reply' : Cmd' → Type) (ε' H' W' O' D' : Type) where
  first : System Cmd Reply ε H W O D
  second : System Cmd' Reply' ε' H' W' O' D'
  drives : Choice H O D → Config Cmd Reply ε H W → Config Cmd' Reply' ε' H' W' →
    List (Choice H' O' D')
  alone : Choice H' O' D' → Bool

/-- The configurations of both systems. -/
structure Joint (Cmd : Type) (Reply : Cmd → Type) (ε H W : Type)
    (Cmd' : Type) (Reply' : Cmd' → Type) (ε' H' W' : Type) where
  first : Config Cmd Reply ε H W
  second : Config Cmd' Reply' ε' H' W'

variable {Cmd : Type} {Reply : Cmd → Type} {ε H W O D : Type}
  {Cmd' : Type} {Reply' : Cmd' → Type} {ε' H' W' O' D' : Type}

namespace Join

variable (J : Join Cmd Reply ε H W O D Cmd' Reply' ε' H' W' O' D')

/-- A choice of the scheduler for either system. -/
inductive Pick (H O D H' O' D' : Type)
  | first (a : Choice H O D)
  | second (b : Choice H' O' D')

def next (a : Pick H O D H' O' D') (x : Joint Cmd Reply ε H W Cmd' Reply' ε' H' W') :
    Option (Joint Cmd Reply ε H W Cmd' Reply' ε' H' W') :=
  match a with
  | .first a => do
    let y ← J.first.next a x.first
    let z ← J.second.follow (fun _ _ => true) (J.drives a x.first x.second) x.second
    return ⟨y, z⟩
  | .second b =>
    if J.alone b then (J.second.next b x.second).map fun z => ⟨x.first, z⟩ else none

inductive Reachable (init : Joint Cmd Reply ε H W Cmd' Reply' ε' H' W') :
    Joint Cmd Reply ε H W Cmd' Reply' ε' H' W' → Prop
  | init : Reachable init init
  | step {x y : Joint Cmd Reply ε H W Cmd' Reply' ε' H' W'} (a : Pick H O D H' O' D')
      (hx : Reachable init x) (hy : J.next a x = some y) : Reachable init y

/-- Follow a schedule of both. -/
def follow (as : List (Pick H O D H' O' D')) (x : Joint Cmd Reply ε H W Cmd' Reply' ε' H' W') :
    Option (Joint Cmd Reply ε H W Cmd' Reply' ε' H' W') :=
  match as with
  | [] => some x
  | a :: as => (J.next a x).bind (follow as)

variable {J} {init x y z : Joint Cmd Reply ε H W Cmd' Reply' ε' H' W'}

/-- A joint step is a step of the first that drives the second, or one of the second alone. -/
theorem next_cases {a : Pick H O D H' O' D'} (hy : J.next a x = some y) :
    (∃ b, a = .first b ∧ J.first.next b x.first = some y.first ∧
      J.second.follow (fun _ _ => true) (J.drives b x.first x.second) x.second = some y.second) ∨
    ∃ b, a = .second b ∧ J.alone b = true ∧ J.second.next b x.second = some y.second ∧
      y.first = x.first := by
  cases a with
  | first b =>
    obtain ⟨u, hu, hy⟩ := Option.bind_eq_some_iff.mp hy
    obtain ⟨v, hv, hy⟩ := Option.bind_eq_some_iff.mp hy
    cases hy
    exact .inl ⟨b, rfl, hu, hv⟩
  | second b =>
    by_cases hb : J.alone b = true
    · rw [next, if_pos hb] at hy
      obtain ⟨v, hv, rfl⟩ := Option.map_eq_some_iff.mp hy
      exact .inr ⟨b, rfl, hb, hv, rfl⟩
    · rw [next, if_neg hb] at hy
      cases hy

theorem Reachable.trans (hxy : J.Reachable x y) (hyz : J.Reachable y z) : J.Reachable x z := by
  induction hyz with
  | init => exact hxy
  | step a _ hy ih => exact .step a ih hy

theorem Reachable.of_follow {as : List (Pick H O D H' O' D')} (hx : J.Reachable init x)
    (hy : J.follow as x = some y) : J.Reachable init y := by
  induction as generalizing x with
  | nil => exact Option.some.inj hy ▸ hx
  | cons a as ih =>
    obtain ⟨u, hu, hy⟩ := Option.bind_eq_some_iff.mp hy
    exact ih (.step a hx hu) hy

/-- A joint run is a run of the first. -/
theorem Reachable.first (hx : J.Reachable init x) :
    J.first.Reachable (fun _ _ => True) init.first x.first := by
  induction hx with
  | init => exact .init
  | step a _ hy ih =>
    rcases next_cases hy with ⟨b, rfl, hb, -⟩ | ⟨b, rfl, -, -, hfirst⟩
    · exact .step b ih trivial hb
    · rw [hfirst]
      exact ih

/-- A joint run is a run of the second, with more steps where the first drives it. -/
theorem Reachable.second (hx : J.Reachable init x) :
    J.second.Reachable (fun _ _ => True) init.second x.second := by
  induction hx with
  | init => exact .init
  | step a _ hy ih =>
    rcases next_cases hy with ⟨b, rfl, -, hb⟩ | ⟨b, rfl, -, hb, -⟩
    · exact ih.of_follow (fun _ _ _ => trivial) hb
    · exact .step b ih trivial hb

/-- The rule for what links the two: a step that drives keeps it, and so does one alone. -/
theorem Reachable.linked {I : Joint Cmd Reply ε H W Cmd' Reply' ε' H' W' → Prop} (h0 : I init)
    (hdrive : ∀ x y b, J.Reachable init x → I x → J.first.next b x.first = some y.first →
      J.second.follow (fun _ _ => true) (J.drives b x.first x.second) x.second = some y.second →
      I y)
    (halone : ∀ x y b, J.Reachable init x → I x → J.alone b = true → J.second.next b x.second = some y.second →
      y.first = x.first → I y)
    (hx : J.Reachable init x) : I x := by
  induction hx with
  | init => exact h0
  | step a hx hy ih =>
    rcases next_cases hy with ⟨b, -, hb, hdriven⟩ | ⟨b, -, hb, hnext, hfirst⟩
    · exact hdrive _ _ b hx ih hb hdriven
    · exact halone _ _ b hx ih hb hnext hfirst

end Join

end Effect
